import Mathlib.Algebra.GroupWithZero.Nat
import PowerManage.Agent.Credentials

/-!
# The agent's credential file

The store checks a bundle, encodes it as PEM blocks and writes the file; loading decodes the
blocks and checks the bundle once more.  The two sets of checks differ, and only the reader
has a bound on the size.

Main results:

- `decode_encode`: the reader finds what the writer put in.
- `validateShape_later`: what becomes of an accepted trust bundle with time.
- `stored_reads_back_iff`: which written bundles are read back.
-/

namespace PowerManage.Agent

open Pki Relational

structure StoredCredentialContinuity where
  agentTrustBundle : Option TrustBundle
  gatewayTrustBundle : Option TrustBundle
  pendingAgentTrustConfirmation : Option PendingTrustConfirmation
  pendingGatewayTrustConfirmation : Option PendingTrustConfirmation
  deriving DecidableEq, Repr

/-- What a PEM block holds; encodings round-trip. -/
inductive Payload where
  | certificate (der : Bytes)
  | pkcs8 (key : Signer)
  | sealing (key : SealingKey)
  | json (continuity : StoredCredentialContinuity)
  deriving DecidableEq, Repr

/-- The library functions of the store. -/
structure StoreX509 extends ClientX509 where
  /-- `x509.MarshalPKCS8PrivateKey` knows the type of the key. -/
  marshals : Signer → Bool
  /-- The number of bytes of an encoding. -/
  encodedLength : Payload → Nat
  /-- Authorities and leaves are read by one parser. -/
  isCA_eq : ∀ der authority leaf, parse der = .ok authority → parseLeaf der = .ok leaf →
    authority.isCA = leaf.isCA
  /-- A verified chain of two certificates is signed; a root is a chain by itself. -/
  signed : ∀ usage host leaf root now, leaf ≠ root → verifyChain usage host leaf root now = true →
    checkSignatureFrom leaf root = true

/-- The PEM blocks of a file, by type and content. -/
abbrev PEMFile : Type := List (String × Payload)

/-- The length of a file by `pem.EncodeToMemory`: for each block two lines with its type,
and lines of 64 characters. -/
def fileSize (x : StoreX509) (file : PEMFile) : Nat :=
  (file.map fun block =>
    let body := (x.encodedLength block.2 + 2) / 3 * 4
    32 + 2 * block.1.utf8ByteSize + body + (body + 63) / 64).sum

def maxCredentialBundleBytes : Nat := 256 * 1024

def continuityPEMType : String := "POWER MANAGE CA CONTINUITY"

def credentialPEMTypes : List String :=
  ["POWER MANAGE AGENT CERTIFICATE", "POWER MANAGE AGENT PRIVATE KEY",
    "POWER MANAGE AGENT CA CERTIFICATE", "POWER MANAGE GATEWAY CA CERTIFICATE",
    "POWER MANAGE SEALING PRIVATE KEY"]

section store

variable [Sha256] (x : StoreX509)

/-- The five blocks of every file. -/
def credentialBlocks (b : CredentialBundle) : PEMFile :=
  credentialPEMTypes.zip [.certificate b.certificateDER, .pkcs8 b.privateKey,
    .certificate b.certificateAuthorityDER, .certificate b.gatewayCertificateAuthorityDER,
    .sealing b.sealingPrivateKey]

def encodeCredentialBundle (b : CredentialBundle) : Except String PEMFile :=
  if ¬ x.marshals b.privateKey then .error "enroll: marshal mTLS private key"
  else if b.agentTrustBundle.generation ≠ 0 ∨ b.gatewayTrustBundle.generation ≠ 0 ∨
      b.pendingAgentTrustConfirmation.isSome ∨ b.pendingGatewayTrustConfirmation.isSome then
    .ok (credentialBlocks b ++ [(continuityPEMType, .json
      ⟨some b.agentTrustBundle, some b.gatewayTrustBundle, b.pendingAgentTrustConfirmation,
        b.pendingGatewayTrustConfirmation⟩)])
  else .ok (credentialBlocks b)

/-- The blocks of the given types at the start of a file, and the rest. -/
def takeBlocks : List String → PEMFile → Except String (List Payload × PEMFile)
  | [], rest => .ok ([], rest)
  | expected :: types, file =>
    match file with
    | (type, payload) :: rest =>
      if type ≠ expected then
        .error ("enroll: credential bundle must contain exact ordered " ++ expected ++ " block")
      else (takeBlocks types rest).map fun (found, rest) => (payload :: found, rest)
    | [] =>
      .error ("enroll: credential bundle must contain exact ordered " ++ expected ++ " block")

/-- The optional last block. -/
def decodeContinuity : PEMFile → Except String
    (TrustBundle × TrustBundle × Option PendingTrustConfirmation × Option PendingTrustConfirmation)
  | [] => .ok (.empty, .empty, none, none)
  | (type, payload) :: rest =>
    if type ≠ continuityPEMType then
      .error "enroll: credential bundle contains duplicate, unknown, or trailing data"
    else if rest ≠ [] then .error "enroll: credential bundle has an invalid CA continuity block"
    else
      match payload with
      | .json ⟨some agent, some gateway, pendingAgent, pendingGateway⟩ =>
        if isAbsent agent && isAbsent gateway then
          .error "enroll: stored CA continuity cannot encode legacy-empty trust state"
        else .ok (agent, gateway, pendingAgent, pendingGateway)
      | .json _ => .error ("enroll: stored CA continuity requires non-null agent and gateway " ++
          "trust bundles")
      | _ => .error "enroll: decode stored CA continuity"

/-- `decodeStoredCredentialBundle`; what is no certificate or no key does not parse. -/
def decodeStoredCredentialBundle (file : PEMFile) : Except String CredentialBundle := do
  match ← takeBlocks credentialPEMTypes file with
  | ([.certificate certificateDER, .pkcs8 privateKey, .certificate authorityDER,
      .certificate gatewayDER, .sealing sealingPrivateKey], rest) =>
      let (agentTrust, gatewayTrust, pendingAgent, pendingGateway) ← decodeContinuity rest
      let certificate ← (x.parseLeaf certificateDER).mapError
        ("enroll: parse stored agent certificate: " ++ ·)
      match certificate.identity with
      | .ok (.agent, deviceID) =>
        if certificate.publicKey ≠ privateKey.publicKey then
          .error "enroll: stored certificate public key mismatch"
        else do
          let _ ← (x.parse authorityDER).mapError
            ("enroll: parse stored agent CA certificate: " ++ ·)
          let _ ← (x.parse gatewayDER).mapError
            ("enroll: parse stored gateway CA certificate: " ++ ·)
          .ok { deviceID, certificateDER, privateKey, sealingPrivateKey
                certificateAuthorityDER := authorityDER
                gatewayCertificateAuthorityDER := gatewayDER
                agentTrustBundle := agentTrust
                gatewayTrustBundle := gatewayTrust
                pendingAgentTrustConfirmation := pendingAgent
                pendingGatewayTrustConfirmation := pendingGateway }
      | _ => .error "enroll: stored agent certificate identity is invalid"
  | _ => .error "enroll: parse stored credentials"

/-- What `Create` and `Replace` write, with the text of their validation error. -/
def FileCredentialStore.write (context : String) (b : CredentialBundle) (now : Int) :
    Except String PEMFile := do
  (validateCredentialBundle x.toClientX509 b now).mapError (context ++ ·)
  encodeCredentialBundle x b

def FileCredentialStore.create : CredentialBundle → Int → Except String PEMFile :=
  FileCredentialStore.write x "enroll: validate credential bundle: "

def FileCredentialStore.replace : CredentialBundle → Int → Except String PEMFile :=
  FileCredentialStore.write x "enroll: validate renewed credential bundle: "

def FileCredentialStore.load (file : PEMFile) (now : Int) : Except String CredentialBundle :=
  if maxCredentialBundleBytes < fileSize x file then
    .error "enroll: read credential bundle: root-only file is too large"
  else do
    let b ← decodeStoredCredentialBundle x file
    (validateStoredCredentialBundle x.toClientX509 b now).mapError
      ("enroll: validate stored credential bundle: " ++ ·)
    .ok b

end store

/-! ## Decoding -/

section checks

variable {x : ClientX509}

variable {now : Int} {b : CredentialBundle}

/-- What the checks of a bundle say about the certificate that names the device. -/
theorem validateEnrollmentResponse_ok [Sha256] {certificateDER authorityDER publicKey : Bytes}
    {pin : Option Fingerprint} {deviceID : String}
    (h : validateEnrollmentResponse x certificateDER authorityDER publicKey pin now =
      .ok deviceID) :
    ∃ authority certificate, x.parse authorityDER = .ok authority ∧
      isAuthority authority = true ∧ authority.signingKey = true ∧
      x.parseLeaf certificateDER = .ok certificate ∧ certificate.publicKey = publicKey ∧
      certificate.identity = .ok (.agent, deviceID) ∧ isAgentProfile certificate = true ∧
      x.verifyChain .clientAuth "" certificateDER authorityDER now = true := by
  unfold validateEnrollmentResponse at h
  split at h
  · cases h
  rename_i authority hauthority
  simp only [ite_error_eq_ok, not_not] at h
  obtain ⟨hprofile, hkey, -, -, h⟩ := h
  split at h
  · cases h
  rename_i certificate hcertificate
  simp only [ite_error_eq_ok, not_not] at h
  obtain ⟨hpublic, h⟩ := h
  split at h
  · cases h
  rename_i cls id hidentity
  simp only [ite_error_eq_ok, not_not] at h
  obtain ⟨rfl, hagent, hverify, h⟩ := h
  cases h
  exact ⟨authority, certificate, hauthority, hprofile, hkey, hcertificate, hpublic, hidentity,
    hagent, hverify⟩

theorem validateGatewayTrustAnchor_ok {gatewayDER agentDER : Bytes} :
    validateGatewayTrustAnchor x gatewayDER agentDER now = .ok () ↔
      ∃ gatewayCA agentCA, x.parse gatewayDER = .ok gatewayCA ∧
        x.parse agentDER = .ok agentCA ∧ isAuthority gatewayCA = true ∧
        gatewayCA.signingKey = true ∧ gatewayCA.validAt now = true ∧
        ¬ (gatewayDER = agentDER ∨ gatewayCA.publicKey = agentCA.publicKey) := by
  unfold validateGatewayTrustAnchor
  cases x.parse gatewayDER with
  | error e => simp
  | ok gatewayCA =>
    cases x.parse agentDER with
    | error e => simp
    | ok agentCA =>
      simp only [ite_error_eq_ok, not_not, Except.ok.injEq, and_true]
      constructor
      · rintro ⟨h₁, h₂, h₃, h₄⟩
        exact ⟨gatewayCA, agentCA, rfl, rfl, h₁, h₂, h₃, h₄⟩
      · rintro ⟨_, _, rfl, rfl, h₁, h₂, h₃, h₄⟩
        exact ⟨h₁, h₂, h₃, h₄⟩

/-- What is left of a bundle that names no roots. -/
def CredentialBundle.reread (b : CredentialBundle) : CredentialBundle :=
  if b.agentTrustBundle.generation = 0 ∧ b.gatewayTrustBundle.generation = 0 then
    { b with agentTrustBundle := .empty, gatewayTrustBundle := .empty }
  else b

theorem isAbsent_iff {bundle : TrustBundle} :
    isAbsent bundle = true ↔ bundle.generation = 0 ∧ bundle.rootCertificateDER = [] := by
  simp [isAbsent]

/-- Either nothing is stored about trust bundles, or both are there. -/
theorem validateCredentialContinuity_ok :
    validateCredentialContinuity x b now = .ok () ↔
      ((∀ cls, isAbsent (b.trustBundle cls) = true) ∧ ∀ cls, b.pending cls = none) ∨
      ((∀ cls, isAbsent (b.trustBundle cls) = false) ∧
        (∀ cls, validateShape .agent x.toX509 now (b.trustBundle cls) = .ok ()) ∧
        (∀ cls, b.authorityDER cls ∈ (b.trustBundle cls).rootCertificateDER) ∧
        validateSeparatedTrustBundles x b.agentTrustBundle b.gatewayTrustBundle = .ok ()) := by
  have hclasses : ∀ P : CertificateClass → Prop, (∀ cls, P cls) ↔ P .agent ∧ P .gateway :=
    fun P => ⟨fun h => ⟨h _, h _⟩, fun h cls => by cases cls; exacts [h.1, h.2]⟩
  simp only [hclasses, CredentialBundle.trustBundle, CredentialBundle.pending,
    CredentialBundle.authorityDER, validateCredentialContinuity]
  cases isAbsent b.agentTrustBundle <;> cases isAbsent b.gatewayTrustBundle
  · simp only [Bool.and_self, Bool.or_self, Bool.false_eq_true, if_false, check_bind_eq_ok,
      mapError_eq_ok, validateTrustBundle_ok_iff, ite_error_eq_ok, not_not, false_and, false_or,
      and_self, true_and, TrustBundle.Follows, TrustBundle.empty, true_or, and_true, and_assoc]
  · simp
  · simp
  · simp

theorem validateCredentialBundle_ok [Sha256] (h : validateCredentialBundle x b now = .ok ()) :
    validatePrivateKey b = .ok () ∧
      validateEnrollmentResponse x b.certificateDER b.certificateAuthorityDER
        b.privateKey.publicKey none now = .ok b.deviceID ∧
      validateGatewayTrustAnchor x b.gatewayCertificateAuthorityDER b.certificateAuthorityDER
        now = .ok () ∧
      x.validateX25519PublicKey b.sealingPrivateKey.publicKey = .ok () ∧
      validateCredentialContinuity x b now = .ok () := by
  simp only [validateCredentialBundle, bind_eq_ok, ite_error_eq_ok, not_not, mapError_eq_ok] at h
  obtain ⟨_, hkey, _, hresponse, rfl, _, hanchor, _, hsealing, _, hcontinuity, -⟩ := h
  exact ⟨hkey, hresponse, hanchor, hsealing, hcontinuity⟩

/-- The reader finds what the writer put in. -/
theorem decode_encode [Sha256] {x : StoreX509} {file : PEMFile}
    (hvalid : validateCredentialBundle x.toClientX509 b now = .ok ())
    (hfile : encodeCredentialBundle x b = .ok file) :
    decodeStoredCredentialBundle x file = .ok b.reread := by
  obtain ⟨-, hresponse, hanchor, -, hcontinuity⟩ := validateCredentialBundle_ok hvalid
  obtain ⟨authority, certificate, hauthority, -, -, hcertificate, hpublic, hidentity, -, -⟩ :=
    validateEnrollmentResponse_ok hresponse
  obtain ⟨gatewayCA, -, hgateway, -⟩ := validateGatewayTrustAnchor_ok.mp hanchor
  have hbody : ∀ rest, decodeContinuity rest = .ok (b.reread.agentTrustBundle,
      b.reread.gatewayTrustBundle, b.pendingAgentTrustConfirmation,
      b.pendingGatewayTrustConfirmation) →
      decodeStoredCredentialBundle x (credentialBlocks b ++ rest) = .ok b.reread := by
    intro rest hrest
    have htake : takeBlocks credentialPEMTypes (credentialBlocks b ++ rest) =
        .ok ([.certificate b.certificateDER, .pkcs8 b.privateKey,
          .certificate b.certificateAuthorityDER, .certificate b.gatewayCertificateAuthorityDER,
          .sealing b.sealingPrivateKey], rest) := by
      simp [credentialBlocks, credentialPEMTypes, takeBlocks, Except.map]
    simp only [decodeStoredCredentialBundle, htake, hrest, hcertificate, hidentity, hpublic,
      hauthority, hgateway, Except.mapError, bind, Except.bind, ne_eq, not_true_eq_false, if_false]
    unfold CredentialBundle.reread
    split <;> rfl
  simp [encodeCredentialBundle] at hfile
  replace hfile := hfile.2
  rcases validateCredentialContinuity_ok.mp hcontinuity with
    ⟨habsent, hpending⟩ | ⟨hpresent, hshape, -⟩
  · have hagent := isAbsent_iff.mp (habsent .agent)
    have hgatewayBundle := isAbsent_iff.mp (habsent .gateway)
    have hnone := hpending .agent
    have hnone' := hpending .gateway
    simp only [CredentialBundle.trustBundle] at hagent hgatewayBundle
    simp only [CredentialBundle.pending] at hnone hnone'
    rw [if_neg (by simp [hagent, hgatewayBundle, hnone, hnone'])] at hfile
    cases hfile
    have hread := hbody [] (by
      simp [decodeContinuity, CredentialBundle.reread, hagent, hgatewayBundle, hnone, hnone'])
    rwa [List.append_nil] at hread
  · have hgeneration : b.agentTrustBundle.generation ≠ 0 := (validateShape_cases (hshape .agent)).1
    rw [if_pos (.inl hgeneration)] at hfile
    cases hfile
    refine hbody _ ?_
    have habsent : isAbsent b.agentTrustBundle = false := hpresent .agent
    have hreread : b.reread = b := if_neg fun h => hgeneration h.1
    simp [decodeContinuity, hreread, habsent]

/-! ## Later checks -/

variable {consumer : CertificateClass} {now now' : Int}

theorem parseContinuityRoot_later {der : Bytes} {root : Certificate} (hclock : now' ≠ zeroTime)
    (h : parseContinuityRoot consumer x.toX509 now der = .ok root)
    (hvalid : root.validAt now' = true) :
    parseContinuityRoot consumer x.toX509 now' der = .ok root := by
  unfold parseContinuityRoot at h ⊢
  simp only [ite_error_eq_ok] at h
  obtain ⟨-, h⟩ := h
  rw [if_neg fun hzero => hclock hzero.2]
  split at h
  · cases h
  · simp only [bind_eq_ok, ite_error_eq_ok] at h ⊢
    obtain ⟨u, hprofile, hpath, husage, hcritical, hkey, -, -, hself, hroot⟩ := h
    cases hroot
    simp [Certificate.validAt] at hvalid
    exact ⟨u, hprofile, hpath, husage, hcritical, hkey, Int.not_lt.mpr hvalid.1,
      Int.not_lt.mpr hvalid.2, hself, rfl⟩

variable {earlier ders : List Bytes} {roots : List Certificate}

theorem parseRoots_later (hclock : now' ≠ zeroTime)
    (h : parseRoots consumer x.toX509 now earlier ders = .ok roots)
    (hvalid : ∀ der ∈ ders, ∀ root, x.parse der = .ok root → root.validAt now' = true) :
    parseRoots consumer x.toX509 now' earlier ders = .ok roots := by
  induction ders generalizing earlier roots with
  | nil => exact h
  | cons der ders ih =>
    simp only [parseRoots] at h ⊢
    split at h
    · cases h
    · rename_i root hroot
      simp at h
      obtain ⟨hnew, rest, hrest, rfl⟩ := h
      rw [parseContinuityRoot_later hclock hroot
        (hvalid der List.mem_cons_self root (parseContinuityRoot_ok hroot))]
      dsimp only
      rw [if_neg hnew, ih hrest (List.forall_mem_cons.mp hvalid).2]
      rfl

theorem parseRoots_length (h : parseRoots consumer x.toX509 now earlier ders = .ok roots) :
    roots.length = ders.length := by
  induction ders generalizing earlier roots with
  | nil =>
    cases h
    rfl
  | cons der ders ih =>
    simp only [parseRoots] at h
    split at h
    · cases h
    · simp at h
      obtain ⟨-, rest, hrest, rfl⟩ := h
      rw [List.length_cons, ih hrest, List.length_cons]

theorem validateTransitionProof_later {currentDER der : Bytes} {current successor : Certificate}
    (hclock : now' ≠ zeroTime)
    (h : validateTransitionProof consumer x.toX509 now currentDER current successor der = .ok ()) :
    validateTransitionProof consumer x.toX509 now' currentDER current successor der = .ok () ↔
      ∀ proof, x.parse der = .ok proof → proof.validAt now' = true := by
  unfold validateTransitionProof at h ⊢
  simp only [ite_error_eq_ok] at h
  obtain ⟨-, h⟩ := h
  rw [if_neg fun hzero => hclock hzero.2]
  split at h
  · cases h
  · rename_i proof hproof
    simp only [ite_error_eq_ok] at h ⊢
    simp only [h.2.2, hproof, not_false_eq_true, and_true, Int.not_lt, Except.ok.injEq, forall_eq',
      Certificate.validAt, Bool.and_eq_true, decide_eq_true_eq]

/-- The proof of a bundle of two roots is valid. -/
def ProofValid (x : ClientX509) (bundle : TrustBundle) (now : Int) : Prop :=
  bundle.rootCertificateDER.length = 2 →
    ∀ proof, x.parse bundle.transitionCertificateDER = .ok proof → proof.validAt now = true

/-- A bundle that was accepted is accepted while its roots and its proof are valid. -/
theorem validateShape_later {bundle : TrustBundle} (hclock : now' ≠ zeroTime)
    (h : validateShape consumer x.toX509 now bundle = .ok ())
    (hvalid : ∀ der ∈ bundle.rootCertificateDER, ∀ root, x.parse der = .ok root →
      root.validAt now' = true) :
    validateShape consumer x.toX509 now' bundle = .ok () ↔ ProofValid x bundle now' := by
  unfold validateShape at h ⊢
  simp [bind_eq_ok] at h ⊢
  obtain ⟨hgeneration, hrevision, hcount, roots, hroots, h⟩ := h
  simp only [hgeneration, hrevision, hcount, not_false_eq_true, true_and,
    parseRoots_later hclock hroots hvalid, Except.ok.injEq, exists_eq_left']
  have hlength := parseRoots_length hroots
  unfold ProofValid
  rw [← hlength]
  cases hders : bundle.rootCertificateDER with
  | nil => simp [hders] at hcount
  | cons first rest =>
    rw [hders] at h
    rcases roots with _ | ⟨current, _ | ⟨successor, _ | _⟩⟩
    · simpa using h
    · simpa using h
    · simp at h ⊢
      rw [validateTransitionProof_later hclock h.2]
      simp [h.1]
    · simpa using h

/-! ## Reading back -/

/-- All roots in the bundle are valid. -/
def RootsValid (x : ClientX509) (b : CredentialBundle) (now : Int) : Prop :=
  ∀ cls, ∀ der ∈ b.authorityDER cls :: (b.trustBundle cls).rootCertificateDER, ∀ root,
    x.parse der = .ok root → root.validAt now = true

/-- What reading back takes besides: the file is not too large, the clock is set, the proofs of
new roots are still valid, and a trust bundle that names no generation is empty. -/
structure Readable (x : StoreX509) (b : CredentialBundle) (file : PEMFile) (now : Int) : Prop where
  fits : fileSize x file ≤ maxCredentialBundleBytes
  clock : now ≠ zeroTime
  proofs : ∀ cls, ProofValid x.toClientX509 (b.trustBundle cls) now
  plain : ∀ cls, (b.trustBundle cls).generation = 0 → b.trustBundle cls = .empty

theorem reread_eq_iff (h : validateCredentialContinuity x b now = .ok ()) :
    b.reread = b ↔ ∀ cls, (b.trustBundle cls).generation = 0 → b.trustBundle cls = .empty := by
  rcases validateCredentialContinuity_ok.mp h with ⟨habsent, -⟩ | ⟨-, hshape, -⟩
  · have hagent : b.agentTrustBundle.generation = 0 := (isAbsent_iff.mp (habsent .agent)).1
    have hgateway : b.gatewayTrustBundle.generation = 0 := (isAbsent_iff.mp (habsent .gateway)).1
    rw [CredentialBundle.reread, if_pos ⟨hagent, hgateway⟩]
    constructor
    · intro heq cls _
      rw [← heq]
      cases cls <;> rfl
    · intro hempty
      have hagent' : b.agentTrustBundle = .empty := hempty .agent hagent
      have hgateway' : b.gatewayTrustBundle = .empty := hempty .gateway hgateway
      cases b
      cases hagent'
      cases hgateway'
      rfl
  · have hne : ∀ cls, (b.trustBundle cls).generation ≠ 0 := fun cls =>
      (validateShape_cases (hshape cls)).1
    rw [CredentialBundle.reread, if_neg fun hzero => hne .agent hzero.1]
    exact ⟨fun _ cls hzero => absurd hzero (hne cls), fun _ => rfl⟩

theorem validateStored_iff [Sha256] {x : StoreX509}
    (h : validateCredentialBundle x.toClientX509 b now = .ok ())
    (hroots : RootsValid x.toClientX509 b now') :
    validateStoredCredentialBundle x.toClientX509 b now' = .ok () ↔
      now' ≠ zeroTime ∧ ∀ cls, ProofValid x.toClientX509 (b.trustBundle cls) now' := by
  obtain ⟨hkey, hresponse, hanchor, hsealing, hcontinuity⟩ := validateCredentialBundle_ok h
  obtain ⟨authority, certificate, hauthority, hprofile, hsigning, hcertificate, hpublic,
    hidentity, hagent, hverify⟩ := validateEnrollmentResponse_ok hresponse
  have hanchor' : validateGatewayTrustAnchor x.toClientX509 b.gatewayCertificateAuthorityDER
      b.certificateAuthorityDER now' = .ok () := by
    obtain ⟨gatewayCA, agentCA, hgateway, hagentCA, hca, hsign, -, hne⟩ :=
      validateGatewayTrustAnchor_ok.mp hanchor
    exact validateGatewayTrustAnchor_ok.mpr ⟨gatewayCA, agentCA, hgateway, hagentCA, hca, hsign,
      hroots .gateway _ List.mem_cons_self _ hgateway, hne⟩
  have hdistinct : b.certificateDER ≠ b.certificateAuthorityDER := by
    intro heq
    rw [heq] at hcertificate
    have hsame := x.isCA_eq _ _ _ hauthority hcertificate
    simp [isAuthority] at hprofile
    simp [isAgentProfile, ← hsame, hprofile] at hagent
  have hstored : validateStoredCertificate x.toClientX509 b = .ok () := by
    simp [validateStoredCertificate, hcertificate, hpublic, hidentity, hagent,
      x.signed _ _ _ _ _ hdistinct hverify]
  have hlater : now' ≠ zeroTime → (validateCredentialContinuity x.toClientX509 b now' = .ok () ↔
      ∀ cls, ProofValid x.toClientX509 (b.trustBundle cls) now') := by
    intro hclock
    rw [validateCredentialContinuity_ok]
    rcases validateCredentialContinuity_ok.mp hcontinuity with
      ⟨habsent, hpending⟩ | ⟨hpresent, hshape, hmember, hseparated⟩
    · refine ⟨fun _ cls htwo => ?_, fun _ => .inl ⟨habsent, hpending⟩⟩
      rw [(isAbsent_iff.mp (habsent cls)).2] at htwo
      cases htwo
    · have hshape' := fun cls => validateShape_later hclock (hshape cls)
        fun der hder => hroots cls der (List.mem_cons_of_mem _ hder)
      constructor
      · rintro (⟨habsent, -⟩ | ⟨-, hnow, -⟩) cls
        · exact absurd (habsent cls) (by simp [hpresent cls])
        · exact (hshape' cls).mp (hnow cls)
      · exact fun hproofs => .inr ⟨hpresent, fun cls => (hshape' cls).mpr (hproofs cls), hmember,
          hseparated⟩
  simp only [validateStoredCredentialBundle, ite_error_eq_ok, check_bind_eq_ok, hkey, hauthority,
    hprofile, hsigning, hanchor', hstored, hsealing, mapError_eq_ok, not_true_eq_false,
    not_false_eq_true, true_and]
  exact and_congr_right hlater

end checks

open FileCredentialStore

/-- A bundle that was written is read back, while its roots are valid, just if it is readable. -/
theorem stored_reads_back_iff [Sha256] {x : StoreX509} {b : CredentialBundle} {now now' : Int}
    {file : PEMFile} (hwrite : create x b now = .ok file ∨ replace x b now = .ok file)
    (hroots : RootsValid x.toClientX509 b now') :
    load x file now' = .ok b ↔ Readable x b file now' := by
  have hwritten : ∃ context, write x context b now = .ok file :=
    hwrite.elim (fun h => ⟨_, h⟩) fun h => ⟨_, h⟩
  obtain ⟨context, hwritten⟩ := hwritten
  simp [write, check_bind_eq_ok] at hwritten
  obtain ⟨hvalid, hfile⟩ := hwritten
  have hplain := reread_eq_iff (validateCredentialBundle_ok hvalid).2.2.2.2
  rw [load, ite_error_eq_ok, decode_encode hvalid hfile]
  constructor
  · rintro ⟨hsize, hload⟩
    simp only [bind_eq_ok, Except.ok.injEq, exists_eq_left', mapError_eq_ok] at hload
    obtain ⟨_, hstored, heq⟩ := hload
    rw [heq] at hstored
    obtain ⟨hclock, hproofs⟩ := (validateStored_iff hvalid hroots).mp hstored
    exact ⟨Nat.not_lt.mp hsize, hclock, hproofs, hplain.mp heq⟩
  · rintro ⟨hfits, hclock, hproofs, hempty⟩
    refine ⟨Nat.not_lt.mpr hfits, ?_⟩
    have heq := hplain.mpr hempty
    have hstored := (validateStored_iff hvalid hroots).mpr ⟨hclock, hproofs⟩
    simp only [bind_eq_ok, Except.ok.injEq, exists_eq_left', mapError_eq_ok, heq, hstored]
    exact ⟨(), trivial, trivial⟩

/-! ## A proof that expires before its roots -/

attribute [local instance] Sha256.verbatim

/-- The sample encoding, with proofs that are valid until 10, and roots until 100. -/
def sampleStoreX509 : StoreX509 :=
  { sampleClientX509 with
    parse := fun
      | [issuer, subject] => .ok { sampleCertificate issuer subject with notAfter := 10 }
      | der => sampleX509.parse der
    marshals := fun _ => true
    encodedLength := fun _ => 100
    isCA_eq := by
      intro der authority leaf hauthority hleaf
      dsimp only [sampleClientX509] at hleaf
      split at hleaf
      · cases hauthority
      · cases hleaf
    signed := by
      intro usage host leaf root now _ h
      dsimp only [sampleClientX509] at h ⊢
      split at h
      · exact h
      · cases h }

def sampleStored : CredentialBundle where
  deviceID := sampleInstance
  certificateDER := sampleLeafDER 1 1 4
  certificateAuthorityDER := [1]
  gatewayCertificateAuthorityDER := [3]
  privateKey := sampleSigner 4
  sealingPrivateKey := ⟨[9]⟩
  agentTrustBundle := ⟨2, 1, [[1], [2]], [1, 2]⟩
  gatewayTrustBundle := ⟨1, 1, [[3]], []⟩
  pendingAgentTrustConfirmation := none
  pendingGatewayTrustConfirmation := none

/-- The file of the sample bundle. -/
def sampleFile : PEMFile :=
  credentialBlocks sampleStored ++ [(continuityPEMType, .json
    ⟨some sampleStored.agentTrustBundle, some sampleStored.gatewayTrustBundle, none, none⟩)]

theorem sampleStored_rootsValid {now : Int} (h : 0 ≤ now) (h' : now ≤ 100) :
    RootsValid sampleStoreX509.toClientX509 sampleStored now := by
  intro cls der hder root hroot
  have hkey : ∃ key, der = [key] := by
    cases cls <;> simp [sampleStored, CredentialBundle.authorityDER,
      CredentialBundle.trustBundle] at hder <;> rcases hder with rfl | rfl <;> exact ⟨_, rfl⟩
  obtain ⟨key, rfl⟩ := hkey
  cases hroot
  simp [Certificate.validAt, sampleCertificate, h, h']

/-- The bundle replaces another one at 5, and cannot be loaded at 20, when its roots are valid. -/
theorem stored_then_refused :
    replace sampleStoreX509 sampleStored 5 = .ok sampleFile ∧
      RootsValid sampleStoreX509.toClientX509 sampleStored 20 ∧
      load sampleStoreX509 sampleFile 20 =
        .error ("enroll: validate stored credential bundle: agent trust bundle: " ++
          "enroll: transition proof is expired") :=
  ⟨by decide, sampleStored_rootsValid (by decide) (by decide), by decide⟩

/-- At 5 it can be loaded. -/
theorem stored_reads_back_sample : Readable sampleStoreX509 sampleStored sampleFile 5 :=
  (stored_reads_back_iff (.inr (by decide : replace sampleStoreX509 sampleStored 5 =
    .ok sampleFile)) (sampleStored_rootsValid (by decide) (by decide))).mp (by decide)

end PowerManage.Agent
