import PowerManage.Auth.RefreshRotation

/-!
# Session tokens

Access and refresh tokens are claims signed with the setup key.  The key is an
input: it signs some claims, and a text that carries its signature says what was
signed.

Main results:

- `verify_ok`: a token that verifies was signed with what it says.
- `mint_ok`: what a minted token says.
-/

namespace PowerManage.Auth

open Relational Store

/-! ## Signed claims -/

/-- The purposes of a token. -/
inductive TokenType where
  | access
  | refresh
  deriving DecidableEq, Repr

/-- `accessTokenLifetime`, five minutes. -/
def accessTokenLifetime : Int := 5 * 60 * second

def TokenType.lifetime : TokenType → Int
  | access => accessTokenLifetime
  | refresh => refreshTokenLifetime

def maxTokenBytes : Nat := 8192

/-- `tokenClaims`; times are Unix seconds. -/
structure TokenClaims where
  subject : String
  tokenType : TokenType
  sessionVersion : Int
  issuedAt : Int
  expiresAt : Int
  deriving DecidableEq, Repr

/-- What `verify` answers of the claims. -/
def TokenClaims.claims (raw : TokenClaims) : Claims where
  subject := raw.subject
  sessionVersion := raw.sessionVersion

/-- The ES256 key pair. -/
structure SigningKey where
  /-- The encoded and signed claims; signing is randomised and may fail. -/
  sign : TokenClaims → Nat → Option String
  /-- The claims of a text that carries the key's signature. -/
  signed : String → Option TokenClaims
  signed_sign : ∀ {raw nonce token}, sign raw nonce = some token → signed token = some raw
  nonempty : ∀ {raw nonce token}, sign raw nonce = some token → token ≠ ""
  trimmed : ∀ {raw nonce token}, sign raw nonce = some token → trimSpace token = token

/-- The errors of minting and verifying. -/
inductive TokenError where
  | expired
  | invalid
  | signing
  deriving DecidableEq, Repr

section mint

variable (key : SigningKey)

/-- The claims that `mint` signs at a time. -/
def mintedClaims (now : Int) (tokenType : TokenType) (claims : Claims) : TokenClaims where
  subject := claims.subject
  tokenType := tokenType
  sessionVersion := claims.sessionVersion
  issuedAt := unix now
  expiresAt := unix (now + tokenType.lifetime)

def mint (now : Int) (nonce : Nat) (tokenType : TokenType) (claims : Claims) :
    Except TokenError String :=
  let raw := mintedClaims now tokenType claims
  if !validSubject claims.subject || decide (claims.sessionVersion ≤ 0) then .error .invalid
  else if !validTime now then .error .invalid
  else if raw.expiresAt ≤ raw.issuedAt then .error .invalid
  else
    match key.sign raw nonce with
    | none => .error .signing
    | some token => if maxTokenBytes < byteLen token then .error .invalid else .ok token

/-- The check of `verify` on the claims of a signed token. -/
def wellFormed (tokenType : TokenType) (raw : TokenClaims) : Bool :=
  validSubject raw.subject && raw.tokenType == tokenType && decide (0 < raw.sessionVersion) &&
    decide (0 < raw.issuedAt) && decide (raw.issuedAt < raw.expiresAt) &&
    raw.expiresAt - raw.issuedAt == tokenType.lifetime / second

/-- `verify`; only access tokens tell that they are expired. -/
def verify (now : Int) (tokenType : TokenType) (token : String) : Except TokenError Claims :=
  if byteLen token = 0 || maxTokenBytes < byteLen token then .error .invalid
  else if !validTime now then .error .invalid
  else
    match key.signed token with
    | none => .error .invalid
    | some raw =>
      if !wellFormed tokenType raw then .error .invalid
      else if raw.expiresAt ≤ unix now then
        .error (if tokenType = .access then .expired else .invalid)
      else .ok raw.claims

/-- When and with which randomness a pair of tokens is signed. -/
structure Minting where
  accessAt : Int
  accessNonce : Nat
  refreshAt : Int
  refreshNonce : Nat

/-- A signed token without space at its ends. -/
def mintTrimmed (now : Int) (nonce : Nat) (tokenType : TokenType) (claims : Claims) :
    Except TokenError { token : String // trimSpace token = token } :=
  match h : mint key now nonce tokenType claims with
  | .error e => .error e
  | .ok token => .ok ⟨token, by
      simp [mint] at h
      obtain ⟨-, -, -, h⟩ := h
      split at h
      · cases h
      · rename_i hsign
        rw [ite_error_eq_ok, Except.ok.injEq] at h
        exact h.2 ▸ key.trimmed hsign⟩

def mintTokens (m : Minting) (claims : Claims) : Except TokenError SessionTokens := do
  let accessToken ← mint key m.accessAt m.accessNonce .access claims
  let refreshToken ← mintTrimmed key m.refreshAt m.refreshNonce .refresh claims
  .ok ⟨accessToken, refreshToken.1, refreshToken.2⟩

end mint

/-! ## What tokens say -/

section signed

variable {key : SigningKey} {now : Int} {nonce : Nat} {tokenType : TokenType} {claims : Claims}
variable {token : String}

/-- The subject and session version that a token carries. -/
def SigningKey.carried (key : SigningKey) (token : String) : Option Claims :=
  (key.signed token).map TokenClaims.claims

/-- What minting has checked and signed. -/
theorem mint_ok (h : mint key now nonce tokenType claims = .ok token) :
    validSubject claims.subject = true ∧ 0 < claims.sessionVersion ∧ validTime now = true ∧
      key.signed token = some (mintedClaims now tokenType claims) ∧ token ≠ "" ∧
      byteLen token ≤ maxTokenBytes := by
  simp only [mint, ite_error_eq_ok, Bool.or_eq_true, Bool.not_eq_true', decide_eq_true_eq,
    not_or, Bool.not_eq_false, not_le] at h
  obtain ⟨⟨hsubject, hversion⟩, hnow, -, h⟩ := h
  split at h
  · cases h
  · rename_i hsign
    rw [ite_error_eq_ok, Except.ok.injEq, not_lt] at h
    obtain ⟨hlen, rfl⟩ := h
    exact ⟨hsubject, hversion, hnow, key.signed_sign hsign, key.nonempty hsign, hlen⟩

theorem mint_carried (h : mint key now nonce tokenType claims = .ok token) :
    key.carried token = some claims := by
  rw [SigningKey.carried, (mint_ok h).2.2.2.1]
  rfl

theorem mintTrimmed_mint {result : { token : String // trimSpace token = token }}
    (h : mintTrimmed key now nonce tokenType claims = .ok result) :
    mint key now nonce tokenType claims = .ok result.1 := by
  unfold mintTrimmed at h
  split at h
  · cases h
  · rename_i token hmint
    cases h
    exact hmint

/-- Both tokens of a pair say the same. -/
theorem mintTokens_carried {m : Minting} {tokens : SessionTokens}
    (h : mintTokens key m claims = .ok tokens) :
    key.carried tokens.accessToken = some claims ∧
      key.carried tokens.refreshToken = some claims := by
  simp only [mintTokens, bind_eq_ok, Except.ok.injEq] at h
  obtain ⟨access, haccess, refresh, hrefresh, rfl⟩ := h
  exact ⟨mint_carried haccess, mint_carried (mintTrimmed_mint hrefresh)⟩

/-- A token that verifies was signed with what it says. -/
theorem verify_ok (h : verify key now tokenType token = .ok claims) :
    key.carried token = some claims := by
  simp [verify] at h
  obtain ⟨-, -, h⟩ := h
  split at h
  · cases h
  · rename_i raw hraw
    simp at h
    rw [SigningKey.carried, hraw, Option.map_some, h.2.2]

end signed

end PowerManage.Auth
