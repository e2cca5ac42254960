import PowerManage.Sign.Envelopes

/-!
# Separation of signing inputs

Commands, results and trust-state confirmations share one byte space.  Their signing
inputs are sequences of frames, so equal inputs have equal fields; the first field is
the domain, and no domain belongs to two families.

Main results:

- `Envelope.covered_eq_of_builds`: equal inputs come from one family and
  agree on every covered field.
- `signatures_separate`: a signature made for one envelope is not accepted
  for another one, short of a collision of digests or a forged signature.
-/

namespace PowerManage.Sign

open List Go Relational Store Wire
open Utf8 (textBytes textBytes_inj)

/-! ## Envelopes of the three families -/

/-- The families of envelopes. -/
inductive Family where
  | command
  | result
  | trustState
  deriving DecidableEq

/-- The domains of a family. -/
def Family.domains : Family → List String
  | command => commandDomains.map Prod.snd
  | result => resultDomains.map Prod.snd
  | trustState => [trustStateSignatureDomain]

/-- What is signed. -/
inductive Envelope where
  | command (cmd : SignedCommand)
  | result (env : DeviceSigned)
  | trustState (claim : TrustStateClaim)

/-- The family of an envelope and the fields that its signature covers. -/
inductive Covered where
  | command (commandType targetDeviceID : String) (issuedAt expiresAt : Option Timestamp)
      (payload : Bytes)
  | result (resultType deviceID : String) (issuedAt : Option Timestamp) (payload : Bytes)
  | trustState (claim : TrustStateClaim)
  deriving DecidableEq

namespace Envelope

def family : Envelope → Family
  | command _ => .command
  | result _ => .result
  | trustState _ => .trustState

/-- The covered fields of an envelope. -/
def covered : Envelope → Covered
  | command cmd =>
    .command cmd.commandType cmd.targetDeviceID cmd.issuedAt cmd.expiresAt cmd.payload.bytes
  | result env => .result env.resultType env.deviceID env.issuedAt env.payload.bytes
  | trustState claim => .trustState claim

/-- A signing input is built for the envelope.  A verifier builds that of a claim
before it refuses a receipt that the claim may not have. -/
def Builds : Envelope → Bytes → Prop
  | command cmd, preimage => commandPreimage cmd = .ok preimage
  | result env, preimage => resultPreimage env = .ok preimage
  | trustState claim, preimage =>
    validateTrustStateClaim claim false = .ok () ∧ preimage = trustStatePreimage claim

/-- The signature that the envelope's signer makes. -/
def sign (x : Crypto) (key : Key) (random : Bytes) : Envelope → Except String Bytes
  | command cmd => (signCommand x key random cmd).map SignedCommand.signature
  | result env => (signResult x key random env).map DeviceSigned.signature
  | trustState claim => signTrustState x key random claim

/-- The envelope's verifier accepts a signature. -/
def Accepts (x : Crypto) (publicKey : Key) (opts : VerifyOptions) (signature : Bytes) :
    Envelope → Prop
  | command cmd =>
    ∃ payload, verifyCommand x publicKey { cmd with signature } opts = .ok payload
  | result env =>
    ∃ payload, verifyResult x publicKey { env with signature } opts.deviceID = .ok payload
  | trustState claim => verifyTrustState x publicKey claim signature = .ok ()

end Envelope

/-- The key's library accepts a signature of a digest. -/
def Crypto.Verifies (x : Crypto) (publicKey : Key) (digest : x.Digest) (signature : Bytes) : Prop :=
  match publicKey with
  | .ecdsaPublic (some key) => x.verifyASN1 key digest signature = true
  | .rsaPublic (some key) => x.verifyPKCS1v15 key digest signature = .ok ()
  | _ => False

/-! ## The fields behind a signing input -/

variable {domain type : String} {claim : TrustStateClaim}

/-- A type's domain is registered with it. -/
theorem mem_of_lookup {domains : List (String × String)} (h : domains.lookup type = some domain) :
    (type, domain) ∈ domains := by
  rcases lookup_eq_some_iff.mp h with ⟨before, after, hdomains, -⟩
  simp [hdomains]

theorem commandDomain_mem (h : commandDomain type = .ok domain) :
    (type, domain) ∈ commandDomains := by
  unfold commandDomain at h
  split at h
  · rename_i found hfound
    cases h
    exact mem_of_lookup hfound
  · cases h

theorem resultDomain_mem (h : resultDomain type = .ok domain) : (type, domain) ∈ resultDomains := by
  unfold resultDomain at h
  rw [ite_error_eq_ok] at h
  have hfound := h.2
  split at hfound
  · rename_i found hlookup
    cases hfound
    exact mem_of_lookup hlookup
  · cases hfound

theorem framable_text {s : String} (h : byteLen s < 2 ^ 63) : Framable (textBytes s) := by
  exact Nat.lt_trans h (by decide)

theorem framable_ulid {id : String} (h : isCanonicalULID id = true) : Framable (textBytes id) := by
  simp [isCanonicalULID] at h
  apply framable_text
  omega

theorem framable_tsBytes (t : Timestamp) : Framable (tsBytes t) := by
  unfold Framable tsBytes
  simp

theorem framable_uint64Bytes (n : UInt64) : Framable (uint64Bytes n) := by
  unfold Framable uint64Bytes
  simp

theorem framable_fingerprint {bytes : Bytes} (h : bytes.length ≤ sha256FingerprintSize) :
    Framable bytes := by
  exact Nat.lt_of_le_of_lt h (by decide)

/-- Every registered type and domain is short. -/
theorem domains_short : ∀ entry ∈ commandDomains ++ resultDomains,
    byteLen entry.1 < 2 ^ 63 ∧ byteLen entry.2 < 2 ^ 63 := by
  decide

/-- What a command's signing input was built from. -/
theorem commandPreimage_ok {cmd : SignedCommand} {preimage : Bytes}
    (h : commandPreimage cmd = .ok preimage) :
    ∃ domain issuedAt expiresAt, (cmd.commandType, domain) ∈ commandDomains ∧
      cmd.issuedAt = some issuedAt ∧ cmd.expiresAt = some expiresAt ∧
      preimage = frames (commandFields domain cmd issuedAt expiresAt) ∧
      ∀ field ∈ commandFields domain cmd issuedAt expiresAt, Framable field := by
  unfold commandPreimage at h
  rcases bind_eq_ok.mp h with ⟨domain, hdomain, hrest⟩
  rw [ite_error_eq_ok] at hrest
  have hmem := commandDomain_mem hdomain
  have hshort := domains_short _ (mem_append_left _ hmem)
  cases hissued : cmd.issuedAt with
  | none => simp [hissued] at hrest
  | some issuedAt =>
    cases hexpires : cmd.expiresAt with
    | none => simp [hissued, hexpires] at hrest
    | some expiresAt =>
      simp only [hissued, hexpires, ite_error_eq_ok, Except.ok.injEq, not_not] at hrest
      refine ⟨domain, issuedAt, expiresAt, hmem, rfl, rfl, hrest.2.2.symm, ?_⟩
      simp only [commandFields, forall_mem_cons]
      exact ⟨framable_text hshort.2, framable_text hshort.1, framable_ulid hrest.2.1,
        framable_tsBytes _, framable_tsBytes _, cmd.payload.framable, forall_mem_nil _⟩

/-- What a result's signing input was built from. -/
theorem resultPreimage_ok {env : DeviceSigned} {preimage : Bytes}
    (h : resultPreimage env = .ok preimage) :
    ∃ domain issuedAt, (env.resultType, domain) ∈ resultDomains ∧
      env.issuedAt = some issuedAt ∧
      preimage = frames (resultFields domain env issuedAt) ∧
      ∀ field ∈ resultFields domain env issuedAt, Framable field := by
  unfold resultPreimage at h
  rcases bind_eq_ok.mp h with ⟨domain, hdomain, hrest⟩
  rw [ite_error_eq_ok] at hrest
  have hmem := resultDomain_mem hdomain
  have hshort := domains_short _ (mem_append_right _ hmem)
  cases hissued : env.issuedAt with
  | none => simp [hissued] at hrest
  | some issuedAt =>
    simp only [hissued, ite_error_eq_ok, Except.ok.injEq, not_not] at hrest
    refine ⟨domain, issuedAt, hmem, rfl, hrest.2.2.symm, ?_⟩
    simp only [resultFields, forall_mem_cons]
    exact ⟨framable_text hshort.2, framable_text hshort.1, framable_ulid hrest.2.1,
      framable_tsBytes _, env.payload.framable, forall_mem_nil _⟩

/-- The roots of a valid claim have the length of a digest. -/
theorem validateRootFingerprints_ok {earlier roots : List Bytes}
    (h : validateRootFingerprints earlier roots = .ok ()) :
    ∀ root ∈ roots, root.length = sha256FingerprintSize := by
  induction roots generalizing earlier with
  | nil => simp
  | cons root roots ih =>
    simp only [validateRootFingerprints, ite_error_eq_ok, not_not] at h
    intro root' hroot'
    rcases mem_cons.mp hroot' with rfl | htail
    · exact h.1
    · exact ih h.2.2 root' htail

/-- A claim that passes with forbidden receipts rejected passes without. -/
theorem validateTrustStateClaim_weaken (h : validateTrustStateClaim claim true = .ok ()) :
    validateTrustStateClaim claim false = .ok () := by
  simp only [validateTrustStateClaim, ite_error_eq_ok, check_bind_eq_ok] at h ⊢
  rcases h with ⟨hreporter, hclaimed, hfingerprint, hgeneration, hrevision, hcount, hroots,
    hreceipt, hrequired, -⟩
  exact ⟨hreporter, hclaimed, hfingerprint, hgeneration, hrevision, hcount, hroots, hreceipt,
    hrequired, by simp⟩

/-- An accepted digest was accepted by the key's library. -/
theorem verifyDigest_ok {x : Crypto} {invalid unsupported : String} {publicKey : Key}
    {digest : x.Digest} {signature : Bytes}
    (h : verifyDigest x invalid unsupported publicKey digest signature = .ok ()) :
    x.Verifies publicKey digest signature := by
  unfold verifyDigest at h
  split at h
  · rename_i key
    by_cases haccepted : x.verifyASN1 key digest signature = true
    · exact haccepted
    · simp [haccepted] at h
  · exact mapError_eq_ok.mp h
  · cases h

/-- The fields of a valid claim can be framed. -/
theorem trustStateFields_framable {strict : Bool}
    (h : validateTrustStateClaim claim strict = .ok ()) :
    ∀ field ∈ trustStateFields claim, Framable field := by
  simp only [validateTrustStateClaim, ite_error_eq_ok, check_bind_eq_ok] at h
  rcases h with ⟨hreporter, hclaimed, hfingerprint, -, -, -, hroots, hreceipt, -⟩
  have hclasses : ∀ s : String, ¬ (s ≠ "agent" ∧ s ≠ "gateway") → Framable (textBytes s) := by
    intro s hs
    rw [not_and_or, not_not, not_not] at hs
    rcases hs with rfl | rfl <;> exact framable_text (by decide)
  have hissuer : claim.crlIssuerFingerprint.length ≤ sha256FingerprintSize := by
    by_cases hnone : claim.crlIssuerFingerprint = []
    · simp [hnone]
    · by_contra hlong
      exact hreceipt (.inr ⟨hnone, by omega⟩)
  have hroot := validateRootFingerprints_ok hroots
  simp only [trustStateFields, forall_mem_append, forall_mem_cons]
  exact ⟨⟨⟨framable_text (by decide), hclasses _ hreporter, hclasses _ hclaimed,
      framable_fingerprint (by omega), framable_uint64Bytes _, framable_uint64Bytes _,
      framable_uint64Bytes _, forall_mem_nil _⟩,
    fun root hmem => framable_fingerprint (hroot root hmem).le⟩,
    framable_fingerprint hissuer, framable_uint64Bytes _, forall_mem_nil _⟩

/-! ## Separation -/

theorem families_disjoint (f f' : Family) : ∀ domain ∈ f.domains, domain ∈ f'.domains → f = f' := by
  cases f <;> cases f' <;> decide

/-- Commands with one signing input agree. -/
theorem commandFields_inj {domain' : String} {cmd cmd' : SignedCommand}
    {issued expires issued' expires' : Timestamp}
    (h : commandFields domain cmd issued expires = commandFields domain' cmd' issued' expires') :
    cmd.commandType = cmd'.commandType ∧ cmd.targetDeviceID = cmd'.targetDeviceID ∧
      issued = issued' ∧ expires = expires' ∧ cmd.payload.bytes = cmd'.payload.bytes := by
  simp [commandFields, textBytes_inj] at h
  rcases h with ⟨-, htype, hdevice, hissued, hexpires, hpayload⟩
  exact ⟨htype, hdevice, tsBytes_inj hissued, tsBytes_inj hexpires, hpayload⟩

/-- Results with one signing input agree. -/
theorem resultFields_inj {domain' : String} {env env' : DeviceSigned} {issued issued' : Timestamp}
    (h : resultFields domain env issued = resultFields domain' env' issued') :
    env.resultType = env'.resultType ∧ env.deviceID = env'.deviceID ∧ issued = issued' ∧
      env.payload.bytes = env'.payload.bytes := by
  simp [resultFields, textBytes_inj] at h
  rcases h with ⟨-, htype, hdevice, hissued, hpayload⟩
  exact ⟨htype, hdevice, tsBytes_inj hissued, hpayload⟩

/-- Claims with one signing input are one claim, also when they list differently many
roots. -/
theorem trustStateFields_inj {claim' : TrustStateClaim}
    (h : trustStateFields claim = trustStateFields claim') : claim = claim' := by
  simp [trustStateFields, textBytes_inj] at h
  rcases h with ⟨hreporter, hclaimed, hfingerprint, hgeneration, hrevision, -, htail⟩
  have hparts := append_inj' htail rfl
  simp at hparts
  rcases hparts with ⟨hroots, hissuer, hsequence⟩
  cases claim
  cases claim'
  simp only [TrustStateClaim.mk.injEq]
  exact ⟨hreporter, hclaimed, hfingerprint, uint64Bytes_inj hgeneration,
    uint64Bytes_inj hrevision, hroots, hissuer, uint64Bytes_inj hsequence⟩

namespace Envelope

variable {e : Envelope}

/-- An envelope's signing input is a sequence of frames that starts with a domain of
its family. -/
theorem builds_fields {preimage : Bytes} (h : e.Builds preimage) :
    ∃ fields domain, preimage = frames fields ∧ (∀ field ∈ fields, Framable field) ∧
      domain ∈ e.family.domains ∧ fields.head? = some (textBytes domain) ∧
      match e with
      | command cmd => ∃ issuedAt expiresAt, cmd.issuedAt = some issuedAt ∧
          cmd.expiresAt = some expiresAt ∧ fields = commandFields domain cmd issuedAt expiresAt
      | result env => ∃ issuedAt, env.issuedAt = some issuedAt ∧
          fields = resultFields domain env issuedAt
      | trustState claim => fields = trustStateFields claim := by
  cases e with
  | command cmd =>
    rcases commandPreimage_ok h with
      ⟨domain, issuedAt, expiresAt, hmem, hissued, hexpires, hframes, hframable⟩
    exact ⟨_, domain, hframes, hframable, mem_map_of_mem hmem, rfl,
      issuedAt, expiresAt, hissued, hexpires, rfl⟩
  | result env =>
    rcases resultPreimage_ok h with ⟨domain, issuedAt, hmem, hissued, hframes, hframable⟩
    exact ⟨_, domain, hframes, hframable, mem_map_of_mem hmem, rfl, issuedAt, hissued, rfl⟩
  | trustState claim =>
    exact ⟨_, trustStateSignatureDomain, h.2, trustStateFields_framable h.1,
      mem_singleton_self _, rfl, rfl⟩

/-- Envelopes with one signing input are of one family and agree on every covered
field. -/
theorem covered_eq_of_builds {e' : Envelope} {preimage : Bytes} (h : e.Builds preimage)
    (h' : e'.Builds preimage) : e.covered = e'.covered := by
  rcases builds_fields h with ⟨fields, domain, hframes, hframable, hmem, hhead, hfields⟩
  rcases builds_fields h' with ⟨fields', domain', hframes', hframable', hmem', hhead', hfields'⟩
  have hsame : fields = fields' := frames_inj hframable hframable' (hframes.symm.trans hframes')
  subst hsame
  have hdomain : domain = domain' := by
    rw [hhead, Option.some.injEq, textBytes_inj] at hhead'
    exact hhead'
  subst hdomain
  have hfamily : e.family = e'.family := families_disjoint _ _ domain hmem hmem'
  cases e with
  | command cmd =>
    cases e' with
    | command cmd' =>
      rcases hfields with ⟨issuedAt, expiresAt, hissued, hexpires, heq⟩
      rcases hfields' with ⟨issuedAt', expiresAt', hissued', hexpires', heq'⟩
      have hagree := commandFields_inj (heq.symm.trans heq')
      simp only [covered, hissued, hexpires, hissued', hexpires', hagree]
    | result _ => cases hfamily
    | trustState _ => cases hfamily
  | result env =>
    cases e' with
    | result env' =>
      rcases hfields with ⟨issuedAt, hissued, heq⟩
      rcases hfields' with ⟨issuedAt', hissued', heq'⟩
      have hagree := resultFields_inj (heq.symm.trans heq')
      simp only [covered, hissued, hissued', hagree]
    | command _ => cases hfamily
    | trustState _ => cases hfamily
  | trustState claim =>
    cases e' with
    | trustState claim' =>
      rw [covered, covered, trustStateFields_inj (hfields.symm.trans hfields')]
    | command _ => cases hfamily
    | result _ => cases hfamily

/-! ## Signatures -/

variable {x : Crypto}

/-- A signer signs the digest of a signing input. -/
theorem sign_ok {key : Key} {random signature : Bytes} (h : e.sign x key random = .ok signature) :
    ∃ preimage, e.Builds preimage ∧ x.sign key random (x.sha256 preimage) = .ok signature := by
  cases e with
  | command cmd =>
    simp only [sign, signCommand, map_eq_ok, bind_eq_ok, mapError_eq_ok] at h
    rcases h with ⟨signed, ⟨_, -, preimage, hbuilds, signature', hsigned, hreturn⟩, hsignature⟩
    cases hreturn
    cases hsignature
    exact ⟨preimage, hbuilds, hsigned⟩
  | result env =>
    simp only [sign, signResult, map_eq_ok, bind_eq_ok, mapError_eq_ok] at h
    rcases h with ⟨signed, ⟨_, -, preimage, hbuilds, signature', hsigned, hreturn⟩, hsignature⟩
    cases hreturn
    cases hsignature
    exact ⟨preimage, hbuilds, hsigned⟩
  | trustState claim =>
    simp only [sign, signTrustState, validatedTrustStatePreimage, bind_eq_ok, mapError_eq_ok]
      at h
    rcases h with ⟨_, -, preimage, ⟨_, hvalid, hreturn⟩, hsigned⟩
    cases hreturn
    exact ⟨_, ⟨validateTrustStateClaim_weaken hvalid, rfl⟩, hsigned⟩

/-- A verifier accepts only what the key's library accepts for the digest of the signing
input. -/
theorem accepts_ok {publicKey : Key} {opts : VerifyOptions} {signature : Bytes}
    (h : e.Accepts x publicKey opts signature) :
    ∃ preimage, e.Builds preimage ∧ x.Verifies publicKey (x.sha256 preimage) signature := by
  cases e with
  | command cmd =>
    rcases h with ⟨payload, hok⟩
    simp only [verifyCommand, ite_error_eq_ok, bind_eq_ok] at hok
    rcases hok with ⟨-, _, -, preimage, hbuilds, -, _, hverify, -⟩
    exact ⟨preimage, hbuilds, verifyDigest_ok hverify⟩
  | result env =>
    rcases h with ⟨payload, hok⟩
    simp only [verifyResult, ite_error_eq_ok, bind_eq_ok] at hok
    rcases hok with ⟨_, -, preimage, hbuilds, -, _, hverify, -⟩
    exact ⟨preimage, hbuilds, verifyDigest_ok hverify⟩
  | trustState claim =>
    simp only [Accepts, verifyTrustState, ite_error_eq_ok, bind_eq_ok] at h
    rcases h with ⟨_, -, -, _, hvalid, _, -, _, hverify, -⟩
    exact ⟨_, ⟨hvalid, rfl⟩, verifyDigest_ok hverify⟩

end Envelope

/-- Signing inputs are injective over all families; and a signature that was made for one
envelope is accepted only for envelopes that agree with it, unless the signing inputs of
the two differ and have one digest, or the signature that was made for the digest of the
first passes for the digest of the second. -/
theorem signatures_separate (x : Crypto) :
    (∀ (e e' : Envelope) (preimage : Bytes), e.Builds preimage → e'.Builds preimage →
      e.covered = e'.covered) ∧
    ∀ (key publicKey : Key) (random signature : Bytes) (opts : VerifyOptions)
      (e e' : Envelope), e.sign x key random = .ok signature →
      e'.Accepts x publicKey opts signature →
      e.covered = e'.covered ∨
        ∃ preimage preimage', e.Builds preimage ∧ e'.Builds preimage' ∧ preimage ≠ preimage' ∧
          (x.sha256 preimage = x.sha256 preimage' ∨
            x.sha256 preimage ≠ x.sha256 preimage' ∧
              x.sign key random (x.sha256 preimage) = .ok signature ∧
              x.Verifies publicKey (x.sha256 preimage') signature) := by
  refine ⟨fun e e' preimage => Envelope.covered_eq_of_builds, ?_⟩
  intro key publicKey random signature opts e e' hsign haccepts
  rcases Envelope.sign_ok hsign with ⟨preimage, hbuilds, hsigned⟩
  rcases Envelope.accepts_ok haccepts with ⟨preimage', hbuilds', hverifies⟩
  by_cases hsame : preimage = preimage'
  · subst hsame
    exact .inl (Envelope.covered_eq_of_builds hbuilds hbuilds')
  · refine .inr ⟨preimage, preimage', hbuilds, hbuilds', hsame, ?_⟩
    by_cases hdigest : x.sha256 preimage = x.sha256 preimage'
    · exact .inl hdigest
    · exact .inr ⟨hdigest, hsigned, hverifies⟩

/-! ## A sample scheme -/

/-- Digests are the inputs themselves and signatures are digests. -/
def sampleCrypto : Crypto where
  Digest := Bytes
  sha256 := id
  sign _ _ digest := .ok digest
  verifyASN1 _ digest signature := digest == signature
  verifyPKCS1v15 _ _ _ := .error "crypto/rsa: verification error"
  twoIntegers _ := true

/-- A key that passes the gate. -/
def samplePublicKey : Key :=
  .ecdsaPublic (some { curve := .p256, point := [4], bytes := .done })

/-- A command without a signature, valid for a minute. -/
def sampleCommand : SignedCommand where
  commandType := "action"
  targetDeviceID := "01K0QJ3E5E8R4M0D8EV3Y4N6J7"
  issuedAt := some ⟨1000, 0⟩
  expiresAt := some ⟨1060, 0⟩
  payload := ⟨[1, 2, 3], by decide⟩
  signature := []

/-- The device that the command is for, half a minute later. -/
def sampleOptions : VerifyOptions where
  deviceID := "01K0QJ3E5E8R4M0D8EV3Y4N6J7"
  now := Time.unix 1030 0
  instant := true

/-- The signature of the sample command. -/
def sampleSignature : Bytes :=
  frames (commandFields actionSignatureDomain sampleCommand ⟨1000, 0⟩ ⟨1060, 0⟩)

theorem signatures_separate_sample :
    (Envelope.command sampleCommand).sign sampleCrypto samplePublicKey [] =
        .ok sampleSignature ∧
      (Envelope.command { sampleCommand with signature := [9] }).Accepts sampleCrypto
        samplePublicKey sampleOptions sampleSignature ∧
      (Envelope.command sampleCommand).covered =
        (Envelope.command { sampleCommand with signature := [9] }).covered := by
  have hsign : (Envelope.command sampleCommand).sign sampleCrypto samplePublicKey [] =
      .ok sampleSignature := rfl
  have haccepts : (Envelope.command { sampleCommand with signature := [9] }).Accepts sampleCrypto
      samplePublicKey sampleOptions sampleSignature := ⟨[1, 2, 3], by rfl⟩
  refine ⟨hsign, haccepts, ?_⟩
  -- In the sample scheme no digests collide and every signature is of one digest.
  rcases (signatures_separate sampleCrypto).2 samplePublicKey samplePublicKey [] sampleSignature
      sampleOptions _ _ hsign haccepts with hcovered | ⟨preimage, preimage', -, -, hne, hunsafe⟩
  · exact hcovered
  · rcases hunsafe with hcollision | ⟨-, hsigned, hverifies⟩
    · exact absurd hcollision hne
    · have hfirst : preimage = sampleSignature := Except.ok.inj hsigned
      have hsecond : preimage' = sampleSignature :=
        (beq_iff_eq (α := Bytes)).mp hverifies
      exact absurd (hfirst.trans hsecond.symm) hne

end PowerManage.Sign
