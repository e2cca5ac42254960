import PowerManage.Pki.Leaves
import PowerManage.Text.Utf8

/-!
# Trust bundles and what consumers accept

Agents and gateways store the root certificates of a certificate class with a
generation and a revision.  A bundle that replaces a stored one must be well
formed and follow it: it is the same bundle, it starts a new generation with a
proof that the last stored root signed, or it drops to one stored root.

Main results:

- `validateShape_cases`: an accepted bundle has one root, or two with a
  proof of the second that the first signed.
- `validateContinuation_ok_iff`: the bundles that may follow a stored one.
- `validateTrustBundle_ok_iff`: the consumer's check is both.
-/

namespace PowerManage.Pki

open Relational

/-- `StoredTrustBundle`, and `GatewayTrustBundle` without its receipt. -/
structure TrustBundle where
  generation : UInt64
  revision : UInt64
  rootCertificateDER : List Bytes
  transitionCertificateDER : Bytes
  deriving DecidableEq, Repr

/-- The zero value, which stands for no stored bundle. -/
def TrustBundle.empty : TrustBundle :=
  ⟨0, 0, [], []⟩

/-! ## What is refused -/

/-- What a consumer refuses about a bundle. -/
inductive BundleFault where
  | zeroGeneration
  | zeroRevision
  | rootCount
  | root (index : Nat) (reason : String)
  | duplicateRoot
  | singleRootProof
  | missingProof
  | proof (reason : String)
  | generationRollback
  | revisionRollback
  | versionReused
  | noCurrentRoots
  | noTransition
  | notNormalized
  deriving DecidableEq, Repr

/-- The error of a consumer of either class. -/
def BundleFault.text : CertificateClass → BundleFault → String
  | .agent, zeroGeneration => "enroll: CA bundle generation must be greater than zero"
  | .agent, zeroRevision => "enroll: CA bundle revision must be greater than zero"
  | .agent, rootCount => "enroll: CA root bundle must contain one or two roots"
  | .agent, root index reason =>
    "enroll: root certificate " ++ toString index ++ ": " ++ reason
  | .agent, duplicateRoot => "enroll: CA root bundle contains a duplicate root"
  | .agent, singleRootProof =>
    "enroll: unchanged single-root bundle must not carry a transition proof"
  | .agent, missingProof => "enroll: dual-root bundle is missing its transition proof"
  | .agent, proof reason => "enroll: " ++ reason
  | .agent, generationRollback => "enroll: CA bundle generation rollback"
  | .agent, revisionRollback => "enroll: CA bundle revision rollback"
  | .agent, versionReused => "enroll: CA bundle version reused for different contents"
  | .agent, noCurrentRoots => "enroll: current CA bundle has no roots to transition from"
  | .agent, noTransition =>
    "enroll: new CA generation lacks a transition proof from the exact pending root"
  | .agent, notNormalized =>
    "enroll: higher CA revision must normalize to an already trusted root"
  | .gateway, zeroGeneration => "ca bundle generation must be greater than zero"
  | .gateway, zeroRevision => "ca bundle revision must be greater than zero"
  | .gateway, rootCount => "ca root bundle must contain one or two roots"
  | .gateway, root index reason => "root certificate " ++ toString index ++ ": " ++ reason
  | .gateway, duplicateRoot => "ca root bundle contains a duplicate root"
  | .gateway, singleRootProof => "unchanged single-root bundle must not carry a transition proof"
  | .gateway, missingProof => "dual-root bundle is missing its transition proof"
  | .gateway, proof reason => reason
  | .gateway, generationRollback => "ca bundle generation rollback"
  | .gateway, revisionRollback => "ca bundle revision rollback"
  | .gateway, versionReused => "ca bundle version reused for different contents"
  -- The gateway indexes the last stored root without this check.
  | .gateway, noCurrentRoots => "index out of range"
  | .gateway, noTransition =>
    "new CA generation lacks a transition proof from the exact current root"
  | .gateway, notNormalized => "higher CA revision must normalize to an already trusted root"

/-! ## Roots and proofs -/

section checks

variable (consumer : CertificateClass) (x : X509) (now : Int)

/-- The first two checks of a root's profile, which the consumers make in opposite
orders. -/
def checkAuthorityProfile (root : Certificate) : Except String Unit :=
  match consumer with
  | .agent =>
    if ¬ root.isCA then .error "is not a CA"
    else if ¬ root.basicConstraintsValid then .error "has invalid basic constraints"
    else .ok ()
  | .gateway =>
    if ¬ root.basicConstraintsValid then .error "has invalid basic constraints"
    else if ¬ root.isCA then .error "is not a CA"
    else .ok ()

/-- `parseContinuityRoot` and `parseGatewayContinuityRoot`; the agent also
refuses a zero clock. -/
def parseContinuityRoot (der : Bytes) : Except String Certificate :=
  if consumer = .agent ∧ now = zeroTime then .error "validation clock is zero"
  else
    match x.parse der with
    | .error e => .error ("is not exact DER: " ++ e)
    | .ok root => do
        checkAuthorityProfile consumer root
        if root.maxPathLen ≠ 0 ∨ ¬ root.maxPathLenZero then .error "has an invalid path length"
        else if root.keyUsage ≠ keyUsageCertSign + keyUsageCRLSign then
          .error "has invalid key usage"
        else if root.unhandledCriticalExtensions ≠ 0 then
          .error "has an unsupported critical extension"
        else if ¬ root.signingKey then .error "has an invalid public key"
        else if now < root.notBefore then .error "is not yet valid"
        else if root.notAfter < now then .error "is expired"
        else if ¬ x.checkSignatureFrom der der then .error "is not self-signed"
        else .ok root

/-- `validateTransitionProof` and `validateGatewayTransitionProof`, without the
prefix of their errors. -/
def validateTransitionProof (currentDER : Bytes) (current successor : Certificate)
    (der : Bytes) : Except String Unit :=
  if consumer = .agent ∧ now = zeroTime then
    .error "transition-proof validation clock is zero"
  else
    match x.parse der with
    | .error e => .error ("transition proof is not exact DER: " ++ e)
    | .ok proof =>
      if now < proof.notBefore then .error "transition proof is not yet valid"
      else if proof.notAfter < now then .error "transition proof is expired"
      else if proof.rawSubject ≠ successor.rawSubject then
        .error "transition proof subject does not match root order"
      else if proof.publicKey ≠ successor.publicKey then
        .error "transition proof public key does not match successor"
      else if current.publicKey = successor.publicKey then
        .error "successor authority reused the current public key"
      else if proof.subjectKeyID ≠ successor.subjectKeyID then
        .error "transition proof subject key identifier drift"
      else if ¬ proof.basicConstraintsValid then
        .error "transition proof has invalid basic constraints"
      else if ¬ proof.isCA then .error "transition proof is not a CA"
      else if proof.maxPathLen ≠ successor.maxPathLen ∨
          proof.maxPathLenZero ≠ successor.maxPathLenZero then
        .error "transition proof path length drift"
      else if proof.keyUsage ≠ successor.keyUsage then
        .error "transition proof key usage drift"
      else if proof.unhandledCriticalExtensions ≠ 0 then
        .error "transition proof has an unsupported critical extension"
      else if proof.rawIssuer ≠ current.rawSubject then
        .error "transition proof issuer does not match current root"
      else if proof.authorityKeyID ≠ current.subjectKeyID then
        .error "transition proof authority key identifier drift"
      else if ¬ x.checkSignatureFrom der currentDER then
        .error "transition proof signature is invalid"
      else .ok ()

/-- The loop over the roots of a bundle, after those already parsed. -/
def parseRoots (earlier : List Bytes) : List Bytes → Except BundleFault (List Certificate)
  | [] => .ok []
  | der :: rest =>
    match parseContinuityRoot consumer x now der with
    | .error reason => .error (.root earlier.length reason)
    | .ok root =>
      if der ∈ earlier then .error .duplicateRoot
      else (parseRoots (earlier ++ [der]) rest).map (root :: ·)

/-- The part of `validateTrustBundle` about the new bundle alone. -/
def validateShape (next : TrustBundle) : Except BundleFault Unit :=
  if next.generation = 0 then .error .zeroGeneration
  else if next.revision = 0 then .error .zeroRevision
  else if next.rootCertificateDER.length < 1 ∨ 2 < next.rootCertificateDER.length then
    .error .rootCount
  else do
    let roots ← parseRoots consumer x now [] next.rootCertificateDER
    match next.rootCertificateDER, roots with
    | currentDER :: _, [current, successor] =>
      if next.transitionCertificateDER = [] then .error .missingProof
      else
        (validateTransitionProof consumer x now currentDER current successor
          next.transitionCertificateDER).mapError .proof
    | _, _ => if next.transitionCertificateDER ≠ [] then .error .singleRootProof else .ok ()

/-- The part of `validateTrustBundle` about the stored bundle. -/
def validateContinuation (current next : TrustBundle) : Except BundleFault Unit :=
  if current.generation = 0 then .ok ()
  else if next.generation < current.generation then .error .generationRollback
  else if next.generation = current.generation ∧ next.revision < current.revision then
    .error .revisionRollback
  else if next.generation = current.generation ∧ next.revision = current.revision then
    if current = next then .ok () else .error .versionReused
  else if current.generation < next.generation then
    match current.rootCertificateDER.getLast?, next.rootCertificateDER with
    | none, _ => .error .noCurrentRoots
    | some last, [first, _] => if first = last then .ok () else .error .noTransition
    | some _, _ => .error .noTransition
  else
    match next.rootCertificateDER with
    | [root] =>
      if root ∈ current.rootCertificateDER then .ok () else .error .notNormalized
    | _ => .error .notNormalized

/-- `validateTrustBundle` and `validateGatewayTrustBundle`. -/
def validateTrustBundle (current next : TrustBundle) : Except String Unit :=
  (do
    validateShape consumer x now next
    validateContinuation current next).mapError (BundleFault.text consumer)

/-! ## What is accepted -/

/-- A proof of one root that another signed, as the consumer checks it. -/
def Certifies (signer root proof : Bytes) : Prop :=
  ∃ current successor, x.parse signer = .ok current ∧ x.parse root = .ok successor ∧
    validateTransitionProof consumer x now signer current successor proof = .ok ()

/-- The bundles that may follow a stored one. -/
def TrustBundle.Follows (current next : TrustBundle) : Prop :=
  current.generation = 0 ∨ next = current ∨
    (current.generation < next.generation ∧ ∃ last successor,
      current.rootCertificateDER.getLast? = some last ∧
      next.rootCertificateDER = [last, successor]) ∨
    (next.generation = current.generation ∧ current.revision < next.revision ∧
      ∃ root ∈ current.rootCertificateDER, next.rootCertificateDER = [root])

variable {consumer x now}

theorem parseContinuityRoot_ok {der : Bytes} {root : Certificate}
    (h : parseContinuityRoot consumer x now der = .ok root) : x.parse der = .ok root := by
  simp only [parseContinuityRoot, ite_error_eq_ok] at h
  obtain ⟨-, h⟩ := h
  split at h
  · cases h
  · rename_i root' hparse
    simp only [bind_eq_ok, ite_error_eq_ok] at h
    obtain ⟨_, -, -, -, -, -, -, -, -, hroot⟩ := h
    rw [hparse, hroot]

/-- The public keys that an accepted proof relates. -/
theorem validateTransitionProof_keys {currentDER der : Bytes} {current successor : Certificate}
    (h : validateTransitionProof consumer x now currentDER current successor der = .ok ()) :
    current.publicKey ≠ successor.publicKey ∧
      ∃ proof, x.parse der = .ok proof ∧ proof.publicKey = successor.publicKey := by
  simp only [validateTransitionProof, ite_error_eq_ok] at h
  obtain ⟨-, h⟩ := h
  split at h
  · cases h
  · rename_i proof hproof
    simp only [ite_error_eq_ok, not_not] at h
    exact ⟨h.2.2.2.2.1, proof, hproof, h.2.2.2.1⟩

/-- A proof of one root by another is no proof of the other, at any time. -/
theorem Certifies.not_signer {now' : Int} {signer root signer' proof : Bytes}
    (h : Certifies consumer x now signer root proof) :
    ¬ Certifies consumer x now' signer' signer proof := by
  rintro ⟨_, current', -, hsigner', hproof'⟩
  obtain ⟨current, successor, hsigner, -, hproof⟩ := h
  cases hsigner.symm.trans hsigner'
  obtain ⟨hne, p, hp, hkey⟩ := validateTransitionProof_keys hproof
  obtain ⟨-, p', hp', hkey'⟩ := validateTransitionProof_keys hproof'
  cases hp.symm.trans hp'
  exact hne (hkey'.symm.trans hkey)

/-- A well-formed bundle has one root and no proof, or two roots and a proof of the
second that the first signed. -/
theorem validateShape_cases {next : TrustBundle} (h : validateShape consumer x now next = .ok ()) :
    next.generation ≠ 0 ∧ next.revision ≠ 0 ∧
      ((∃ root, next.rootCertificateDER = [root] ∧ next.transitionCertificateDER = []) ∨
        ∃ first second, next.rootCertificateDER = [first, second] ∧ first ≠ second ∧
          next.transitionCertificateDER ≠ [] ∧
          Certifies consumer x now first second next.transitionCertificateDER) := by
  simp only [validateShape, ite_error_eq_ok, bind_eq_ok] at h
  obtain ⟨hgeneration, hrevision, hcount, roots, hroots, h⟩ := h
  refine ⟨hgeneration, hrevision, ?_⟩
  cases hders : next.rootCertificateDER with
  | nil => simp [hders] at hcount
  | cons first rest =>
    rw [hders] at hroots h hcount
    simp only [parseRoots] at hroots
    split at hroots
    · cases hroots
    · rename_i current hcurrent
      simp only [List.not_mem_nil, if_false, List.nil_append, map_eq_ok] at hroots
      obtain ⟨certs, hcerts, rfl⟩ := hroots
      cases rest with
      | nil =>
        simp only [parseRoots, Except.ok.injEq] at hcerts
        subst hcerts
        simp only [ite_error_eq_ok, not_not] at h
        exact .inl ⟨first, rfl, h.1⟩
      | cons second rest =>
        have hrest : rest = [] := by
          cases rest with
          | nil => rfl
          | cons third rest => simp at hcount
        subst hrest
        simp only [parseRoots] at hcerts
        split at hcerts
        · cases hcerts
        · rename_i successor hsuccessor
          simp only [ite_error_eq_ok, List.mem_singleton] at hcerts
          obtain ⟨hne, hcerts⟩ := hcerts
          cases hcerts
          simp at h
          exact .inr ⟨first, second, rfl, fun heq => hne heq.symm, h.1, current, successor,
            parseContinuityRoot_ok hcurrent, parseContinuityRoot_ok hsuccessor, h.2⟩

variable {current next : TrustBundle}

theorem validateContinuation_ok_iff :
    validateContinuation current next = .ok () ↔ current.Follows next := by
  unfold validateContinuation TrustBundle.Follows
  by_cases hzero : current.generation = 0
  · simp [hzero]
  by_cases hrollback : next.generation < current.generation
  · have hne : next ≠ current := by
      rintro rfl
      exact UInt64.lt_irrefl _ hrollback
    have hle : ¬ current.generation < next.generation :=
      UInt64.not_lt.mpr (UInt64.le_of_lt hrollback)
    have hne' : next.generation ≠ current.generation := UInt64.ne_of_lt hrollback
    simp [hzero, hrollback, hne, hle, hne']
  by_cases hgeneration : next.generation = current.generation
  · have hle : ¬ current.generation < next.generation := by
      rw [hgeneration]
      exact UInt64.lt_irrefl _
    by_cases hrevision : next.revision < current.revision
    · have hne : next ≠ current := by
        rintro rfl
        exact UInt64.lt_irrefl _ hrevision
      have hnot : ¬ current.revision < next.revision :=
        UInt64.not_lt.mpr (UInt64.le_of_lt hrevision)
      simp [hzero, hgeneration, hrevision, hne, hnot, UInt64.lt_irrefl]
    by_cases hsame : next.revision = current.revision
    · by_cases heq : current = next
      · subst heq
        simp [hzero, UInt64.lt_irrefl]
      · simp [hzero, hgeneration, hsame, heq, UInt64.lt_irrefl, Ne.symm heq]
    · have hlt : current.revision < next.revision := by
        rw [UInt64.lt_iff_toNat_lt] at hrevision ⊢
        have : next.revision.toNat ≠ current.revision.toNat :=
          fun h => hsame (UInt64.toNat_inj.mp h)
        omega
      have hne : next ≠ current := fun h => hsame (by rw [h])
      simp only [hzero, if_false, hgeneration, UInt64.lt_irrefl, true_and, hrevision, hsame, hlt,
        hne, false_and, false_or]
      split
      · rename_i root hroots
        simp [hroots]
      · rename_i hroots
        constructor
        · intro h; cases h
        · rintro ⟨root, -, h⟩
          exact absurd h (hroots root)
  · have hlt : current.generation < next.generation := by
      rw [UInt64.lt_iff_toNat_lt] at hrollback ⊢
      have : next.generation.toNat ≠ current.generation.toNat :=
        fun h => hgeneration (UInt64.toNat_inj.mp h)
      omega
    have hne : next ≠ current := fun h => hgeneration (by rw [h])
    simp only [hzero, if_false, hrollback, hgeneration, false_and, hlt, if_true, hne, true_and,
      false_or, or_false]
    split
    · rename_i hlast
      simp [hlast]
    · rename_i last first second hlast hroots
      simp [hlast, hroots, eq_comm]
    · rename_i last hlast hroots
      constructor
      · intro h; cases h
      · rintro ⟨last', successor, -, h⟩
        exact absurd h (hroots _ _)

theorem validateTrustBundle_ok_iff :
    validateTrustBundle consumer x now current next = .ok () ↔
      validateShape consumer x now next = .ok () ∧ current.Follows next := by
  rw [validateTrustBundle, mapError_eq_ok, check_bind_eq_ok, validateContinuation_ok_iff]

end checks

end PowerManage.Pki
