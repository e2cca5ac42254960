import PowerManage.Pkg.Names

/-!
# The address of a client

Behind a trusted proxy the address of a client stands in the
`X-Forwarded-For` header.  Each proxy adds the address it was called from on the
right, so only what trusted proxies added can be believed.

Main results:

- `walk_ok_iff`: where the walk over the hops ends.
- `walk_untrusted_hop`: what stands left of an untrusted hop is not read.
- `resolve_unspoofable`: the resolved address, whatever a client sends.
-/

namespace PowerManage.Auth

open Utf8 (textBytes)

/-! ## Addresses -/

/-- `netip.Addr`: the zero value, an IPv4 address, or an IPv6 address with its zone. -/
inductive Addr where
  | invalid
  | v4 (bits : BitVec 32)
  | v6 (bits : BitVec 128) (zone : Bytes)
  deriving DecidableEq

/-- The IPv6 addresses that stand for IPv4 addresses. -/
def is4In6 (bits : BitVec 128) : Bool :=
  bits >>> 32 == 0xffff

def Addr.unmap : Addr → Addr
  | .v6 bits zone => if is4In6 bits then .v4 (bits.setWidth 32) else .v6 bits zone
  | addr => addr

/-- `netip.Prefix`: an address without zone and the number of bits that count. -/
inductive Prefix where
  | invalid
  | v4 (addr : BitVec 32) (bits : Fin 33)
  | v6 (addr : BitVec 128) (bits : Fin 129)
  deriving DecidableEq

/-- `Prefix.Contains`.  The bits that do not count are shifted away. -/
def Prefix.contains : Prefix → Addr → Bool
  | .v4 addr bits, .v4 other => (addr ^^^ other) >>> (32 - bits.val) == 0
  | .v6 addr bits, .v6 other zone => zone == [] && (addr ^^^ other) >>> (128 - bits.val) == 0
  | _, _ => false

/-- What `NewClientIPResolver` asks of a prefix: valid, masked, and not an IPv4 range
in IPv6 form. -/
def Prefix.acceptable : Prefix → Bool
  | .invalid => false
  | .v4 addr bits => addr >>> (32 - bits.val) <<< (32 - bits.val) == addr
  | .v6 addr bits => addr >>> (128 - bits.val) <<< (128 - bits.val) == addr && !is4In6 addr

/-! ## The resolver -/

/-- `netip.ParseAddr`, of which only this is used: the empty text is no address. -/
structure AddrSyntax where
  parseAddr : Bytes → Option Addr
  parseAddr_nil : parseAddr [] = none

structure ClientIPResolver where
  trusted : List Prefix

def newClientIPResolver (trusted : List Prefix) : Except String ClientIPResolver :=
  if trusted.all Prefix.acceptable then .ok ⟨trusted⟩
  else .error "trusted proxy prefix is invalid"

def ClientIPResolver.isTrusted (r : ClientIPResolver) (addr : Addr) : Bool :=
  r.trusted.any fun range => range.contains addr

def maxForwardedForHops : Nat := 32

def comma : UInt8 := 44

/-- The address that a hop names. -/
def AddrSyntax.hopAddr (x : AddrSyntax) (hop : Bytes) : Option Addr :=
  (x.parseAddr (Pkg.trimSpace hop)).map Addr.unmap

/-- The loop of `Resolve` over the hops, the last one first. -/
def walk (x : AddrSyntax) (r : ClientIPResolver) : List Bytes → Addr → Except String Addr
  | [], current => .ok current
  | hop :: hops, current =>
    if r.isTrusted current then
      match x.hopAddr hop with
      | none => .error "trusted proxy chain is invalid"
      | some addr => walk x r hops addr
    else .ok current

def resolve (x : AddrSyntax) (r : ClientIPResolver) (peer : Addr) (forwardedFor : Bytes) :
    Except String Addr :=
  if peer = .invalid then .error "client IP peer is invalid"
  else if forwardedFor = [] || !r.isTrusted peer.unmap then .ok peer.unmap
  else if maxForwardedForHops ≤ forwardedFor.count comma then
    .error "trusted proxy chain is invalid"
  else walk x r (forwardedFor.splitOn comma).reverse peer.unmap

/-! ## The walk -/

section walk

variable {x : AddrSyntax} {r : ClientIPResolver} {current addr : Addr} {hop : Bytes}

/-- The hop names a trusted proxy. -/
def TrustedHop (x : AddrSyntax) (r : ClientIPResolver) (hop : Bytes) : Prop :=
  ∃ addr, x.hopAddr hop = some addr ∧ r.isTrusted addr = true

theorem walk_untrusted (hops : List Bytes) (h : r.isTrusted current = false) :
    walk x r hops current = .ok current := by
  cases hops with
  | nil => rfl
  | cons hop hops => simp [walk, h]

/-- The hops lead to their rightmost untrusted one, or to the leftmost when all are
trusted. -/
def LeadsTo (x : AddrSyntax) (r : ClientIPResolver) (hops : List Bytes) (addr : Addr) : Prop :=
  ∃ left hop right, hops = left ++ hop :: right ∧ (∀ other ∈ right, TrustedHop x r other) ∧
    x.hopAddr hop = some addr ∧ (r.isTrusted addr = true → left = [])

theorem leadsTo_concat (hops : List Bytes) :
    LeadsTo x r (hops ++ [hop]) addr ↔
      (x.hopAddr hop = some addr ∧ (r.isTrusted addr = true → hops = [])) ∨
        TrustedHop x r hop ∧ LeadsTo x r hops addr := by
  constructor
  · rintro ⟨left, found, right, hsplit, hright, hfound, hleft⟩
    rcases right.eq_nil_or_concat' with rfl | ⟨right, last, rfl⟩
    · obtain ⟨rfl, hlast⟩ := List.append_inj' hsplit rfl
      cases hlast
      exact .inl ⟨hfound, hleft⟩
    · rw [← List.cons_append, ← List.append_assoc] at hsplit
      obtain ⟨rfl, hlast⟩ := List.append_inj' hsplit rfl
      cases hlast
      rw [List.forall_mem_append, List.forall_mem_singleton] at hright
      exact .inr ⟨hright.2, left, found, right, rfl, hright.1, hfound, hleft⟩
  · rintro (⟨hfound, hleft⟩ | ⟨hhop, left, found, right, rfl, hright, hfound, hleft⟩)
    · exact ⟨hops, hop, [], rfl, by simp, hfound, hleft⟩
    · refine ⟨left, found, right ++ [hop], by simp, ?_, hfound, hleft⟩
      rw [List.forall_mem_append, List.forall_mem_singleton]
      exact ⟨hright, hhop⟩

/-- From a trusted proxy the walk goes where the hops lead. -/
theorem walk_ok_iff {hops : List Bytes} (h : r.isTrusted current = true) (hne : hops ≠ []) :
    walk x r hops.reverse current = .ok addr ↔ LeadsTo x r hops addr := by
  induction hops using List.reverseRecOn generalizing current with
  | nil => exact absurd rfl hne
  | append_singleton hops hop ih =>
    rw [leadsTo_concat, List.reverse_concat, walk, if_pos h]
    cases hhop : x.hopAddr hop with
    | none => simp [TrustedHop, hhop]
    | some named =>
      cases hnamed : r.isTrusted named with
      | false =>
        have hstop : named = addr → r.isTrusted addr = true → hops = [] := by
          rintro rfl
          simp [hnamed]
        simpa [walk_untrusted _ hnamed, TrustedHop, hhop, hnamed] using hstop
      | true =>
        by_cases hhops : hops = []
        · subst hhops
          simp [walk, LeadsTo]
        · simp [ih hnamed hhops, TrustedHop, hhop, hnamed, hhops]
          rintro rfl huntrusted
          simp [hnamed] at huntrusted

/-- The walk reads nothing beyond an untrusted hop. -/
theorem walk_untrusted_hop (right left : List Bytes) (hhop : x.hopAddr hop = some addr)
    (h : r.isTrusted addr = false) :
    walk x r (right ++ hop :: left) current = walk x r (right ++ [hop]) current := by
  induction right generalizing current with
  | nil => simp [walk, hhop, walk_untrusted _ h]
  | cons first right ih =>
    simp only [List.cons_append, walk]
    split
    · cases x.hopAddr first with
      | none => rfl
      | some named => exact ih
    · rfl

end walk

/-! ## Resolved addresses -/

/-- The header is `tail`, or has it right of a comma. -/
def EndsIn (header tail : Bytes) : Prop :=
  header = tail ∨ ∃ left, header = left ++ comma :: tail

theorem EndsIn.splitOn {header tail : Bytes} (h : EndsIn header tail) :
    ∃ left, header.splitOn comma = left ++ tail.splitOn comma := by
  rcases h with rfl | ⟨left, rfl⟩
  · exact ⟨[], rfl⟩
  · exact ⟨left.splitOn comma, List.splitOn_append_cons_self _ _⟩

/-- The peer is resolved unless it is trusted and there is a header.  Then it is the
rightmost untrusted hop, or the leftmost hop when all are trusted, within the limit of hops;
and text left of an untrusted hop changes the address into an error at most. -/
theorem resolve_unspoofable (x : AddrSyntax) (r : ClientIPResolver) (peer : Addr)
    (hpeer : peer ≠ .invalid) :
    (∀ header, r.isTrusted peer.unmap = false ∨ header = [] →
      resolve x r peer header = .ok peer.unmap) ∧
    (∀ header addr, r.isTrusted peer.unmap = true → header ≠ [] →
      (resolve x r peer header = .ok addr ↔
        header.count comma < maxForwardedForHops ∧
          LeadsTo x r (header.splitOn comma) addr)) ∧
    ∀ header header' tail hop rest named addr, EndsIn header tail → EndsIn header' tail →
      tail.splitOn comma = hop :: rest → x.hopAddr hop = some named →
      r.isTrusted named = false → resolve x r peer header = .ok addr →
      resolve x r peer header' = .ok addr ∨ ∃ e, resolve x r peer header' = .error e := by
  refine ⟨?_, ?_, ?_⟩
  · rintro header (huntrusted | rfl)
    · simp [resolve, hpeer, huntrusted]
    · simp [resolve, hpeer]
  · intro header addr htrusted hheader
    rw [resolve, if_neg hpeer, if_neg (by simp [hheader, htrusted])]
    split
    · rename_i hlimit
      simp [Nat.not_lt.mpr hlimit]
    · rename_i hlimit
      rw [walk_ok_iff htrusted (List.splitOn_ne_nil comma header),
        and_iff_right (Nat.not_le.mp hlimit)]
  · intro header header' tail hop rest named addr hheader hheader' htail hhop hnamed hresolved
    have htailNe : tail ≠ [] := by
      rintro rfl
      rw [List.splitOn_nil] at htail
      cases htail
      have hempty : x.hopAddr [] = none := by
        rw [AddrSyntax.hopAddr, show Pkg.trimSpace [] = [] from rfl, x.parseAddr_nil]
        rfl
      rw [hempty] at hhop
      cases hhop
    have hne : ∀ text, EndsIn text tail → text ≠ [] := by
      rintro text (rfl | ⟨left, rfl⟩)
      · exact htailNe
      · simp
    -- Both headers are walked as their common end is.
    have hwalk : ∀ text, EndsIn text tail → walk x r (text.splitOn comma).reverse peer.unmap =
        walk x r (rest.reverse ++ [hop]) peer.unmap := by
      intro text htext
      obtain ⟨left, hsplit⟩ := htext.splitOn
      rw [hsplit, htail, ← walk_untrusted_hop rest.reverse left.reverse hhop hnamed]
      simp
    simp only [resolve, hpeer, hne _ hheader, hne _ hheader', hwalk _ hheader, hwalk _ hheader',
      if_false, decide_false, Bool.false_or] at hresolved ⊢
    split
    · rename_i huntrusted
      rw [if_pos huntrusted] at hresolved
      exact .inl hresolved
    · rename_i htrusted
      rw [if_neg htrusted] at hresolved
      split
      · exact .inr ⟨_, rfl⟩
      · split at hresolved
        · cases hresolved
        · exact .inl hresolved

/-- A client behind the proxy range `10.0.0.0/8`. -/
def sampleSyntax : AddrSyntax where
  parseAddr text := if text = textBytes "192.0.2.7" then some (.v4 0xc0000207) else none
  parseAddr_nil := rfl

theorem resolve_sample_unspoofable :
    newClientIPResolver [.v4 0x0a000000 8] = .ok ⟨[.v4 0x0a000000 8]⟩ ∧
      (resolve sampleSyntax ⟨[.v4 0x0a000000 8]⟩ (.v4 0x0a000001) (textBytes "x, 192.0.2.7") =
          .ok (.v4 0xc0000207) ∨
        ∃ e, resolve sampleSyntax ⟨[.v4 0x0a000000 8]⟩ (.v4 0x0a000001)
          (textBytes "x, 192.0.2.7") = .error e) :=
  ⟨rfl, (resolve_unspoofable sampleSyntax ⟨[.v4 0x0a000000 8]⟩ (.v4 0x0a000001)
    (by decide)).2.2 (textBytes " 192.0.2.7") _ (textBytes " 192.0.2.7") (textBytes " 192.0.2.7") []
    (.v4 0xc0000207) _ (.inl rfl) (.inr ⟨textBytes "x", rfl⟩) (by decide) (by decide) (by decide)
    rfl⟩

end PowerManage.Auth
