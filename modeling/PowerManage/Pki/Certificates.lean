import Mathlib.Logic.Function.Basic
import PowerManage.Relational.Program
import PowerManage.Text.Utf8

/-!
# Certificates and signing authorities

The certificate fields that the server and its consumers inspect, the checks on
a successor root and its transition proof, and the in-memory set of authorities
that one certificate class signs with.
-/

namespace PowerManage.Pki

open Relational

/-! ## Certificates -/

/-- A SHA-256 digest. -/
structure Fingerprint where
  bytes : Bytes
  deriving DecidableEq, Repr

/-- SHA-256, taken to have no collisions. -/
class Sha256 where
  /-- `sha256.Sum256`. -/
  sha256 : Bytes → Fingerprint
  sha256_injective : Function.Injective sha256

export Sha256 (sha256 sha256_injective)

@[simp]
theorem sha256_inj [Sha256] {a b : Bytes} : sha256 a = sha256 b ↔ a = b :=
  sha256_injective.eq_iff

/-- The hash of the samples: a digest is the string itself. -/
@[reducible]
def Sha256.verbatim : Sha256 := ⟨Fingerprint.mk, fun _ _ h => Fingerprint.mk.inj h⟩

inductive CertificateClass where
  | agent
  | gateway
  deriving DecidableEq, Repr

/-- The name of a class in messages and stream IDs. -/
def CertificateClass.text : CertificateClass → String
  | agent => "agent"
  | gateway => "gateway"

/-- The fields of `x509.Certificate` that are inspected. -/
structure Certificate where
  rawSubject : Bytes
  rawIssuer : Bytes
  subjectKeyID : Bytes
  authorityKeyID : Bytes
  /-- The PKIX encoding of the public key. -/
  publicKey : Bytes
  /-- `sign.ValidateSigningKey` accepts the public key. -/
  signingKey : Bool
  serialNumber : Nat
  isCA : Bool
  basicConstraintsValid : Bool
  maxPathLen : Int
  maxPathLenZero : Bool
  keyUsage : Nat
  unhandledCriticalExtensions : Nat
  notBefore : Int
  notAfter : Int
  deriving DecidableEq, Repr

def keyUsageCertSign : Nat := 32

def keyUsageCRLSign : Nat := 64

def maxCertificateDERBytes : Nat := 65536

/-- Parsing and signature checks of Go's `crypto/x509`. -/
structure X509 where
  /-- `parseExactCertificate`: the whole input is one certificate. -/
  parse : Bytes → Except String Certificate
  /-- `CheckSignatureFrom`, of the child and its parent. -/
  checkSignatureFrom : Bytes → Bytes → Bool

/-- `crypto.Signer`, by the public key it signs for. -/
structure Signer where
  publicKey : Bytes
  /-- `sign.ValidateSigningKey` accepts the signer. -/
  signingKey : Bool
  deriving DecidableEq, Repr

/-- A time lies within a certificate's validity window. -/
def Certificate.validAt (c : Certificate) (now : Int) : Bool :=
  c.notBefore ≤ now && now ≤ c.notAfter

def Certificate.signsCertificates (c : Certificate) : Bool :=
  c.keyUsage &&& keyUsageCertSign != 0

def Certificate.signsCRLs (c : Certificate) : Bool :=
  c.keyUsage &&& keyUsageCRLSign != 0

/-! ## Authorities -/

variable [Sha256]

/-- `certificateAuthority`. -/
structure Authority where
  certificateDER : Bytes
  signer : Signer
  deriving DecidableEq, Repr

def newCertificateAuthority (x : X509) (now : Int) (role : String) (certificateDER : Bytes)
    (signer : Signer) : Except String Authority :=
  match x.parse certificateDER with
  | .error e => .error ("parse " ++ role ++ " CA certificate: " ++ e)
  | .ok c =>
    if ¬ c.validAt now then .error (role ++ " CA certificate is not currently valid")
    else if ¬ (c.basicConstraintsValid && c.isCA) then
      .error (role ++ " CA certificate is not a CA")
    else if ¬ c.signsCertificates then
      .error (role ++ " CA certificate lacks certificate-signing key usage")
    else if ¬ c.signsCRLs then
      .error (role ++ " CA certificate lacks CRL-signing key usage")
    else if c.subjectKeyID = [] then
      .error (role ++ " CA certificate lacks subject key ID")
    else if ¬ c.signingKey then
      .error ("validate " ++ role ++ " CA certificate key")
    else if ¬ signer.signingKey then
      .error ("validate " ++ role ++ " CA signer")
    else if c.publicKey ≠ signer.publicKey then
      .error (role ++ " CA signer does not match certificate")
    else .ok { certificateDER, signer }

/-- The authorities of one certificate class: `agentCA` and `agentIssuers`,
or their gateway counterparts. -/
structure Issuers where
  current : Authority
  installed : Fingerprint → Option Authority
  /-- Every authority is filed under its own certificate. -/
  filed : ∀ fingerprint a, installed fingerprint = some a →
    sha256 a.certificateDER = fingerprint

namespace Issuers

/-- `NewAuthorities`, for one class. -/
def new (a : Authority) : Issuers where
  current := a
  installed := Function.update (fun _ => none) (sha256 a.certificateDER) (some a)
  filed := by
    intro fingerprint b h
    by_cases hf : fingerprint = sha256 a.certificateDER
    · rw [hf, Function.update_self, Option.some.injEq] at h
      rw [hf, h]
    · rw [Function.update_of_ne hf] at h
      exact absurd h (by simp)

/-- Enter an authority under its certificate. -/
def file (i : Issuers) (a : Authority) : Issuers where
  current := i.current
  installed := Function.update i.installed (sha256 a.certificateDER) (some a)
  filed := by
    intro fingerprint b h
    by_cases hf : fingerprint = sha256 a.certificateDER
    · rw [hf, Function.update_self, Option.some.injEq] at h
      rw [hf, h]
    · rw [Function.update_of_ne hf] at h
      exact i.filed fingerprint b h

def installAuthority (x : X509) (now : Int) (cls : CertificateClass) (certificateDER : Bytes)
    (signer : Signer) (i : Issuers) : Except String Issuers :=
  (newCertificateAuthority x now cls.text certificateDER signer).map i.file

def selectAuthority (cls : CertificateClass) (fingerprint : Fingerprint) (i : Issuers) :
    Except String Issuers :=
  match i.installed fingerprint with
  | none => .error (cls.text ++ " issuer is not installed")
  | some authority => .ok { i with current := authority }

def removeAuthority (fingerprint : Fingerprint) (i : Issuers) : Issuers where
  current := i.current
  installed := Function.update i.installed fingerprint none
  filed := by
    intro f a h
    by_cases hf : f = fingerprint
    · rw [hf, Function.update_self] at h
      exact absurd h (by simp)
    · rw [Function.update_of_ne hf] at h
      exact i.filed f a h

end Issuers

/-! ## Successors -/

def validateRotationSuccessor (x : X509) (currentDER successorDER transitionDER : Bytes)
    (signer : Signer) (now : Int) : Except String Unit :=
  match x.parse currentDER with
  | .error e => .error ("pki: parse current rotation root: " ++ e)
  | .ok current =>
    match x.parse successorDER with
    | .error e => .error ("pki: parse successor rotation root: " ++ e)
    | .ok successor =>
      if currentDER = successorDER ∨ ¬ x.checkSignatureFrom successorDER successorDER ∨
          ¬ successor.isCA ∨ ¬ successor.basicConstraintsValid ∨ ¬ successor.signsCertificates ∨
          ¬ successor.signsCRLs ∨ successor.subjectKeyID = [] ∨
          current.subjectKeyID = successor.subjectKeyID ∨ ¬ successor.validAt now then
        .error "pki: invalid successor rotation root"
      else
        match newCertificateAuthority x now "successor" successorDER signer with
        | .error e => .error ("pki: successor signer binding: " ++ e)
        | .ok _ =>
          match x.parse transitionDER with
          | .error e => .error ("pki: parse rotation transition proof: " ++ e)
          | .ok transition =>
            if successor.publicKey ≠ transition.publicKey ∨
                transition.rawSubject ≠ successor.rawSubject ∨
                transition.subjectKeyID ≠ successor.subjectKeyID ∨
                transition.rawIssuer ≠ current.rawSubject ∨
                transition.authorityKeyID ≠ current.subjectKeyID ∨
                transition.isCA ≠ successor.isCA ∨
                transition.basicConstraintsValid ≠ successor.basicConstraintsValid ∨
                transition.maxPathLen ≠ successor.maxPathLen ∨
                transition.maxPathLenZero ≠ successor.maxPathLenZero ∨
                transition.keyUsage ≠ successor.keyUsage ∨
                transition.unhandledCriticalExtensions ≠ 0 ∨
                ¬ transition.validAt now ∨ ¬ x.checkSignatureFrom transitionDER currentDER then
              .error "pki: invalid rotation transition proof"
            else .ok ()

/-! ## A sample encoding -/

/-- A certificate of key `subject` signed with key `issuer`. -/
def sampleCertificate (issuer subject : UInt8) : Certificate where
  rawSubject := [subject]
  rawIssuer := [issuer]
  subjectKeyID := [subject]
  authorityKeyID := [issuer]
  publicKey := [subject]
  signingKey := true
  serialNumber := subject.toNat
  isCA := true
  basicConstraintsValid := true
  maxPathLen := 0
  maxPathLenZero := true
  keyUsage := keyUsageCertSign + keyUsageCRLSign
  unhandledCriticalExtensions := 0
  notBefore := 0
  notAfter := 100

/-- Roots are encoded by their key, other certificates by the keys of issuer and subject. -/
def sampleX509 : X509 where
  parse
    | [subject] => .ok (sampleCertificate subject subject)
    | [issuer, subject] => .ok (sampleCertificate issuer subject)
    | _ => .error "malformed certificate"
  checkSignatureFrom
    | [subject], [root] => subject = root
    | [issuer, _], [root] => issuer = root
    | _, _ => false

/-- The signer of a sample key. -/
def sampleSigner (key : UInt8) : Signer where
  publicKey := [key]
  signingKey := true

/-- A root handed over to another: the new root is valid for the old one. -/
example : validateRotationSuccessor sampleX509 [1] [2] [1, 2] (sampleSigner 2) 5 = .ok () := by
  decide

end PowerManage.Pki
