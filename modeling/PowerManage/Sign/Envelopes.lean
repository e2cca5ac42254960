import PowerManage.Go.Time
import PowerManage.Store.Event
import PowerManage.Text.Utf8
import PowerManage.Wire.Framing

/-!
# Signed envelopes

Commands to devices, results from devices and trust-state confirmations are signed
over one framing: the fields that a signature covers, each after its length, behind
the domain of the envelope's family and type.  The module follows
`contract/sign`: the key gate, the signing inputs, the signers and verifiers.

Signatures and the digest are whatever the key's library computes; nothing is
assumed of them here.
-/

namespace PowerManage.Sign

open Go Relational Store Wire
open Utf8 (textBytes)

/-! ## Keys -/

/-- An operation of a key's library: it may fail, and a panic is recovered. -/
inductive Attempt where
  | done
  | failed (e : String)
  | panicked
  deriving DecidableEq, Repr

/-- The curves that `ValidateSigningKey` tells apart. -/
inductive Curve where
  | p256
  | p384
  | p521
  | other
  deriving DecidableEq, Repr

/-- `ecdsa.PublicKey`. -/
structure ECDSAPublicKey where
  curve : Curve
  point : Bytes
  /-- `PublicKey.Bytes`. -/
  bytes : Attempt
  deriving DecidableEq, Repr

/-- `ecdsa.PrivateKey`. -/
structure ECDSAPrivateKey where
  publicKey : ECDSAPublicKey
  /-- `PrivateKey.Bytes`. -/
  bytes : Attempt
  /-- `ecdsa.ParseRawPrivateKey` on those bytes: the public key of the scalar. -/
  parsed : Except String ECDSAPublicKey

/-- `rsa.PublicKey`. -/
structure RSAPublicKey where
  modulus : Option Int
  exponent : Int
  deriving DecidableEq, Repr

/-- `rsa.PrivateKey`. -/
structure RSAPrivateKey where
  publicKey : RSAPublicKey
  /-- `PrivateKey.Validate`. -/
  validate : Attempt

/-- Key material as it reaches the gate; `none` is a typed nil. -/
inductive Key where
  | missing
  | ecdsaPrivate (key : Option ECDSAPrivateKey)
  | rsaPrivate (key : Option RSAPrivateKey)
  | ecdsaPublic (key : Option ECDSAPublicKey)
  | rsaPublic (key : Option RSAPublicKey)
  | ed25519Public
  | ed25519Private
  | signer (type : String) (isNil : Bool) (publicKey : Key)
  | other (type : String)

/-- A key's type in messages. -/
def Key.type : Key → String
  | missing => "<nil>"
  | ecdsaPrivate _ => "*ecdsa.PrivateKey"
  | rsaPrivate _ => "*rsa.PrivateKey"
  | ecdsaPublic _ => "*ecdsa.PublicKey"
  | rsaPublic _ => "*rsa.PublicKey"
  | ed25519Public => "ed25519.PublicKey"
  | ed25519Private => "ed25519.PrivateKey"
  | signer type _ _ => type
  | other type => type

def validateECDSAPoint (key : ECDSAPublicKey) : Except String Unit :=
  match key.bytes with
  | .done => .ok ()
  | .failed e => .error ("invalid ECDSA public key: " ++ e)
  | .panicked => .error "invalid ECDSA public key: malformed coordinates"

def validateECDSAPrivateKey (key : ECDSAPrivateKey) : Except String Unit :=
  match key.bytes with
  | .panicked => .error "invalid ECDSA private key: malformed private scalar"
  | .failed e => .error ("invalid ECDSA private key: " ++ e)
  | .done =>
    match key.parsed with
    | .error e => .error ("invalid ECDSA private key: " ++ e)
    | .ok parsed =>
      if parsed ≠ key.publicKey then
        .error "invalid ECDSA private key: private scalar does not match public point"
      else .ok ()

def validateRSAPrivateKey (key : RSAPrivateKey) : Except String Unit :=
  match key.validate with
  | .panicked => .error "invalid RSA private key: malformed private components"
  | .failed e => .error ("invalid RSA private key: " ++ e)
  | .done => .ok ()

/-- The `*ecdsa.PublicKey` branch of `ValidateSigningKey`. -/
def validateECDSAPublicKey : Option ECDSAPublicKey → Except String Unit
  | none =>
    .error "nil ECDSA public key: typed-nil key material must never reach verification ([TM-5])"
  | some key =>
    if key.curve = .other then .error "unsupported ECDSA curve: use P-256, P-384, or P-521"
    else validateECDSAPoint key

/-- The `*rsa.PublicKey` branch of `ValidateSigningKey`. -/
def validateRSAPublicKey : Option RSAPublicKey → Except String Unit
  | none =>
    .error "nil RSA public key: typed-nil key material must never reach verification ([TM-5])"
  | some key =>
    if key.modulus.any (fun n => 2 ^ 2047 ≤ n ∧ n % 2 = 1) ∧ 3 ≤ key.exponent ∧
        key.exponent % 2 = 1 then .ok ()
    else .error ("invalid RSA public key: use an odd modulus of at least 2048 bits and an " ++
      "odd exponent >= 3")

def validateSigningKey : Key → Except String Unit
  | .missing => .error "nil command-signing key: a key must be wired before boot ([TM-5])"
  | .ecdsaPrivate none =>
    .error "nil ECDSA private key: typed-nil key material must never reach signing ([TM-5])"
  | .ecdsaPrivate (some key) => do
      validateECDSAPublicKey (some key.publicKey)
      validateECDSAPrivateKey key
  | .rsaPrivate none =>
    .error "nil RSA private key: typed-nil key material must never reach signing ([TM-5])"
  | .rsaPrivate (some key) => do
      validateRSAPublicKey (some key.publicKey)
      validateRSAPrivateKey key
  | .ecdsaPublic key => validateECDSAPublicKey key
  | .rsaPublic key => validateRSAPublicKey key
  | .ed25519Public | .ed25519Private =>
    .error "ed25519 keys are refused for command signing ([WIRE-14], AC-14): use ECDSA or RSA"
  | .signer type isNil publicKey =>
    if isNil then .error ("nil signing key of type " ++ type ++ " ([TM-5])")
    else validateSigningKey publicKey
  | .other type =>
    .error ("unsupported command-signing key type " ++ type ++ ": use ECDSA or RSA")

/-- The library functions behind signatures. -/
structure Crypto where
  Digest : Type
  /-- `sha256.Sum256`. -/
  sha256 : Bytes → Digest
  /-- `Signer.Sign`, with the random bytes that it draws. -/
  sign : Key → Bytes → Digest → Except String Bytes
  /-- `ecdsa.VerifyASN1`. -/
  verifyASN1 : ECDSAPublicKey → Digest → Bytes → Bool
  /-- `rsa.VerifyPKCS1v15`. -/
  verifyPKCS1v15 : RSAPublicKey → Digest → Bytes → Except String Unit
  /-- `asn1.Unmarshal` reads two integers and nothing is left. -/
  twoIntegers : Bytes → Bool

/-- The switch over the key's type that the verifiers share. -/
def verifyDigest (x : Crypto) (invalid unsupported : String) (publicKey : Key)
    (digest : x.Digest) (signature : Bytes) : Except String Unit :=
  match publicKey with
  | .ecdsaPublic (some key) =>
    if x.verifyASN1 key digest signature then .ok () else .error invalid
  | .rsaPublic (some key) =>
    (x.verifyPKCS1v15 key digest signature).mapError fun e => invalid ++ ": " ++ e
  | key => .error (unsupported ++ key.type)

/-! ## Encodings of the covered fields -/

/-- A protobuf timestamp. -/
structure Timestamp where
  seconds : Int64
  nanos : Int32
  deriving DecidableEq

def tsBytes (t : Timestamp) : Bytes :=
  bigEndian 8 t.seconds.toUInt64.toNat ++ bigEndian 4 t.nanos.toUInt32.toNat

def uint64Bytes (n : UInt64) : Bytes :=
  bigEndian 8 n.toNat

theorem uint64Bytes_inj {m n : UInt64} (h : uint64Bytes m = uint64Bytes n) : m = n :=
  UInt64.toNat_inj.mp (bigEndian_inj (UInt64.toNat_lt m) (UInt64.toNat_lt n) h)

theorem tsBytes_inj {t u : Timestamp} (h : tsBytes t = tsBytes u) : t = u := by
  have hparts := List.append_inj h (by simp)
  have hseconds : t.seconds.toUInt64 = u.seconds.toUInt64 :=
    UInt64.toNat_inj.mp (bigEndian_inj (UInt64.toNat_lt _) (UInt64.toNat_lt _) hparts.1)
  have hnanos : t.nanos.toUInt32 = u.nanos.toUInt32 :=
    UInt32.toNat_inj.mp (bigEndian_inj (UInt32.toNat_lt _) (UInt32.toNat_lt _) hparts.2)
  cases t with
  | mk seconds nanos =>
    cases u with
    | mk seconds' nanos' =>
      cases seconds
      cases nanos
      cases hseconds
      cases hnanos
      rfl

def isCanonicalULID (id : String) : Bool :=
  byteLen id == 26 && id.toList.head?.any (charBetween '0' '7') &&
    id.toList.tail.all fun c => charBetween '0' '9' c ||
      (charBetween 'A' 'Z' c && c != 'I' && c != 'L' && c != 'O' && c != 'U')

/-! ## Commands -/

structure SignedCommand where
  commandType : String
  targetDeviceID : String
  issuedAt : Option Timestamp
  expiresAt : Option Timestamp
  payload : Slice
  signature : Bytes

def actionSignatureDomain := "power-manage:cmd:action:v1"
def osquerySignatureDomain := "power-manage:cmd:osquery:v1"
def logquerySignatureDomain := "power-manage:cmd:logquery:v1"
def inventorySignatureDomain := "power-manage:cmd:inventory:v1"
def luksRevokeSignatureDomain := "power-manage:cmd:luks-revoke:v1"
def lpsPubkeySignatureDomain := "power-manage:cmd:lps-pubkey:v1"
def terminalGrantSignatureDomain := "power-manage:cmd:terminal-grant:v1"
def syncManifestSignatureDomain := "power-manage:cmd:sync-manifest:v1"

def terminalGrantType := "terminal-grant"

def commandDomains : List (String × String) :=
  [("action", actionSignatureDomain),
    ("osquery", osquerySignatureDomain),
    ("logquery", logquerySignatureDomain),
    ("inventory", inventorySignatureDomain),
    ("luks-revoke", luksRevokeSignatureDomain),
    ("lps-pubkey", lpsPubkeySignatureDomain),
    (terminalGrantType, terminalGrantSignatureDomain),
    ("sync-manifest", syncManifestSignatureDomain)]

def commandDomain (commandType : String) : Except String String :=
  match commandDomains.lookup commandType with
  | some domain => .ok domain
  | none =>
    .error ("unknown command_type " ++ quote commandType ++ ": not in the closed SPEC-003 §3.4 set")

/-- The covered fields of a command, in order. -/
def commandFields (domain : String) (cmd : SignedCommand) (issuedAt expiresAt : Timestamp) :
    List Bytes :=
  [textBytes domain, textBytes cmd.commandType, textBytes cmd.targetDeviceID,
    tsBytes issuedAt, tsBytes expiresAt, cmd.payload.bytes]

def commandPreimage (cmd : SignedCommand) : Except String Bytes := do
  let domain ← commandDomain cmd.commandType
  if cmd.payload.bytes = [] then
    .error "empty payload: signing inputs are never empty ([WIRE-25])"
  else
    match cmd.issuedAt, cmd.expiresAt with
    | some issuedAt, some expiresAt =>
      if ¬ isCanonicalULID cmd.targetDeviceID then
        .error ("target_device_id is not a ULID: a malformed address is never framed, " ++
          "signed, or verified ([WIRE-18])")
      else .ok (frames (commandFields domain cmd issuedAt expiresAt))
    | _, _ => .error "issued_at and expires_at are required covered fields"

/-- `SignCommand`: the command with its signature. -/
def signCommand (x : Crypto) (key : Key) (random : Bytes) (cmd : SignedCommand) :
    Except String SignedCommand := do
  validateSigningKey key
  let preimage ← commandPreimage cmd
  let signature ← (x.sign key random (x.sha256 preimage)).mapError fun e =>
    "signing command preimage: " ++ e
  return { cmd with signature }

structure VerifyOptions where
  deviceID : String
  now : Time
  instant : Bool

/-- `MaxInstantWindow`, in nanoseconds. -/
def maxInstantWindow : Int := 15 * 60 * second

def maxTerminalGrantWindow : Int := 60 * second

def maxFutureClockSkew : Int := 5 * 60 * second

/-- `Timestamp.AsTime`; a missing timestamp reads as zero. -/
def asTime (t : Option Timestamp) : Time :=
  match t with
  | some t => Time.unix t.seconds.toInt t.nanos.toInt
  | none => Time.unix 0 0

/-- The time checks of `VerifyCommand`. -/
def checkFreshness (commandType : String) (issued expires : Time) (opts : VerifyOptions) :
    Except String Unit :=
  let window := expires.sub issued
  if issued.after expires then
    .error "issued_at is after expires_at: malformed validity window"
  else if issued.after opts.now ∧ maxFutureClockSkew < issued.sub opts.now then
    .error ("issued_at is more than " ++ durationText maxFutureClockSkew ++
      " in the future ([WIRE-15])")
  else if expires.before opts.now then
    .error "command expired: nothing executes or persists past expires_at ([WIRE-15])"
  else if opts.instant ∧ maxInstantWindow < window then
    .error ("instant command window " ++ durationText window ++ " exceeds the " ++
      durationText maxInstantWindow ++ " maximum ([WIRE-15])")
  else if commandType = terminalGrantType ∧ maxTerminalGrantWindow < window then
    .error ("terminal-grant window " ++ durationText window ++ " exceeds the " ++
      durationText maxTerminalGrantWindow ++ " maximum ([WIRE-16])")
  else .ok ()

def verifyCommand (x : Crypto) (publicKey : Key) (cmd : SignedCommand) (opts : VerifyOptions) :
    Except String Bytes :=
  if opts.now.isZero then
    .error "VerifyOptions.Now is unset: a verification time is required ([WIRE-15])"
  else do
    validateSigningKey publicKey
    let preimage ← commandPreimage cmd
    if cmd.targetDeviceID ≠ opts.deviceID then
      .error ("target_device_id is not the verifying device: refusing a command addressed " ++
        "elsewhere ([WIRE-18])")
    else do
      verifyDigest x ("signature does not verify under domain for command_type " ++
        quote cmd.commandType) "unsupported verifying key type " publicKey
        (x.sha256 preimage) cmd.signature
      checkFreshness cmd.commandType (asTime cmd.issuedAt) (asTime cmd.expiresAt) opts
      return cmd.payload.bytes

/-! ## Results -/

structure DeviceSigned where
  resultType : String
  deviceID : String
  issuedAt : Option Timestamp
  payload : Slice
  signature : Bytes

def executionResultSignatureDomain := "power-manage:result:execution:v1"
def complianceResultSignatureDomain := "power-manage:result:compliance:v1"
def inventoryResultSignatureDomain := "power-manage:result:inventory:v1"
def alertResultSignatureDomain := "power-manage:result:alert:v1"
def osqueryResultSignatureDomain := "power-manage:result:osquery:v1"
def logqueryResultSignatureDomain := "power-manage:result:logquery:v1"

def resultDomains : List (String × String) :=
  [("execution", executionResultSignatureDomain),
    ("compliance", complianceResultSignatureDomain),
    ("inventory", inventoryResultSignatureDomain),
    ("alert", alertResultSignatureDomain),
    ("osquery", osqueryResultSignatureDomain),
    ("logquery", logqueryResultSignatureDomain)]

def isResultType (s : String) : Bool :=
  s != "" && s.toList.all fun c => charBetween 'a' 'z' c || charBetween '0' '9' c || c == '-'

def resultDomain (resultType : String) : Except String String :=
  if ¬ isResultType resultType then
    .error ("result_type " ++ quote resultType ++
      " violates the [a-z0-9-]+ grammar: an unframable type never gets a domain")
  else
    match resultDomains.lookup resultType with
    | some domain => .ok domain
    | none =>
      .error ("result_type " ++ quote resultType ++
        " is not in the closed [WIRE-20a] set: an unregistered type never gets a domain")

/-- The covered fields of a result, in order. -/
def resultFields (domain : String) (env : DeviceSigned) (issuedAt : Timestamp) : List Bytes :=
  [textBytes domain, textBytes env.resultType, textBytes env.deviceID, tsBytes issuedAt,
    env.payload.bytes]

def resultPreimage (env : DeviceSigned) : Except String Bytes := do
  let domain ← resultDomain env.resultType
  if env.payload.bytes = [] then
    .error "empty payload: signing inputs are never empty ([WIRE-25])"
  else
    match env.issuedAt with
    | none => .error "issued_at is a required covered field"
    | some issuedAt =>
      if ¬ isCanonicalULID env.deviceID then
        .error ("device_id is not a ULID: a malformed reporter identity is never framed, " ++
          "signed, or verified ([WIRE-18])")
      else .ok (frames (resultFields domain env issuedAt))

def signResult (x : Crypto) (key : Key) (random : Bytes) (env : DeviceSigned) :
    Except String DeviceSigned := do
  validateSigningKey key
  let preimage ← resultPreimage env
  let signature ← (x.sign key random (x.sha256 preimage)).mapError fun e =>
    "signing result preimage: " ++ e
  return { env with signature }

/-- `VerifyResult`; the options hold the expected device only. -/
def verifyResult (x : Crypto) (publicKey : Key) (env : DeviceSigned) (deviceID : String) :
    Except String Bytes := do
  validateSigningKey publicKey
  let preimage ← resultPreimage env
  if env.deviceID ≠ deviceID then
    .error ("device_id is not the expected reporter: refusing a report claiming another " ++
      "device's identity ([WIRE-20])")
  else do
    verifyDigest x ("signature does not verify under domain for result_type " ++
      quote env.resultType) "unsupported verifying key type " publicKey
      (x.sha256 preimage) env.signature
    return env.payload.bytes

/-! ## Trust-state confirmations -/

def trustStateSignatureDomain := "power-manage:trust-state:v1"

def sha256FingerprintSize : Nat := 32

structure TrustStateClaim where
  reporterClass : String
  claimedClass : String
  reporterCertificateFingerprint : Bytes
  generation : UInt64
  revision : UInt64
  rootFingerprints : List Bytes
  crlIssuerFingerprint : Bytes
  crlSequence : UInt64
  deriving DecidableEq

/-- The loop of `validateTrustStateClaim` over the roots, after those before. -/
def validateRootFingerprints (earlier : List Bytes) :
    List Bytes → Except String Unit
  | [] => .ok ()
  | fingerprint :: rest =>
    if fingerprint.length ≠ sha256FingerprintSize then
      .error ("root fingerprint " ++ toString earlier.length ++ " must be a SHA-256 fingerprint")
    else if fingerprint ∈ earlier then .error "root fingerprints must be distinct"
    else validateRootFingerprints (earlier ++ [fingerprint]) rest

def validateTrustStateClaim (claim : TrustStateClaim) (rejectForbiddenReceipt : Bool) :
    Except String Unit :=
  let requiresReceipt := claim.reporterClass = "gateway" ∧ claim.claimedClass = "agent"
  let hasIssuer := claim.crlIssuerFingerprint ≠ []
  let hasSequence := claim.crlSequence ≠ 0
  if claim.reporterClass ≠ "agent" ∧ claim.reporterClass ≠ "gateway" then
    .error "reporter class must be agent or gateway"
  else if claim.claimedClass ≠ "agent" ∧ claim.claimedClass ≠ "gateway" then
    .error "claimed class must be agent or gateway"
  else if claim.reporterCertificateFingerprint.length ≠ sha256FingerprintSize then
    .error "reporter certificate fingerprint must be a SHA-256 fingerprint"
  else if claim.generation = 0 then .error "generation must be greater than zero"
  else if claim.revision = 0 then .error "revision must be greater than zero"
  else if claim.rootFingerprints.length < 1 ∨ 2 < claim.rootFingerprints.length then
    .error "root fingerprints must contain one or two entries"
  else do
    validateRootFingerprints [] claim.rootFingerprints
    if ¬ (hasIssuer ↔ hasSequence) ∨
        (hasIssuer ∧ claim.crlIssuerFingerprint.length ≠ sha256FingerprintSize) then
      .error "crl receipt requires a SHA-256 issuer fingerprint and non-zero sequence"
    else if requiresReceipt ∧ ¬ hasIssuer then
      .error "crl receipt is required when a gateway confirms agent trust"
    else if rejectForbiddenReceipt ∧ ¬ requiresReceipt ∧ hasIssuer then
      .error "crl receipt is forbidden for this reporter and claimed class"
    else .ok ()

/-- The covered fields of a claim, in order. -/
def trustStateFields (claim : TrustStateClaim) : List Bytes :=
  [textBytes trustStateSignatureDomain, textBytes claim.reporterClass,
    textBytes claim.claimedClass, claim.reporterCertificateFingerprint,
    uint64Bytes claim.generation, uint64Bytes claim.revision,
    uint64Bytes (UInt64.ofNat claim.rootFingerprints.length)] ++
  claim.rootFingerprints ++
  [claim.crlIssuerFingerprint, uint64Bytes claim.crlSequence]

def trustStatePreimage (claim : TrustStateClaim) : Bytes :=
  frames (trustStateFields claim)

/-- `TrustStatePreimage`. -/
def validatedTrustStatePreimage (claim : TrustStateClaim) : Except String Bytes := do
  validateTrustStateClaim claim true
  return trustStatePreimage claim

def signTrustState (x : Crypto) (key : Key) (random : Bytes) (claim : TrustStateClaim) :
    Except String Bytes := do
  validateSigningKey key
  let preimage ← validatedTrustStatePreimage claim
  (x.sign key random (x.sha256 preimage)).mapError fun e => "sign trust-state preimage: " ++ e

/-- An ECDSA signature is parsed before it is verified. -/
def checkSignatureForm (x : Crypto) (publicKey : Key) (signature : Bytes) : Except String Unit :=
  match publicKey with
  | .ecdsaPublic (some _) =>
    if x.twoIntegers signature then .ok () else .error "trust-state signature is malformed"
  | _ => .ok ()

def verifyTrustState (x : Crypto) (publicKey : Key) (claim : TrustStateClaim)
    (signature : Bytes) : Except String Unit := do
  validateSigningKey publicKey
  if signature = [] then .error "trust-state signature is empty"
  else do
    validateTrustStateClaim claim false
    checkSignatureForm x publicKey signature
    verifyDigest x "trust-state signature is invalid"
      "unsupported trust-state verification key type " publicKey
      (x.sha256 (trustStatePreimage claim)) signature
    validateTrustStateClaim claim true

end PowerManage.Sign
