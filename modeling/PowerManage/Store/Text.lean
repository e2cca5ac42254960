import Mathlib.Data.List.Sort

/-!
# Text and identifier checks

The character classes, ULID checks and bounded-text checks that the store's
validators share.  Strings are valid UTF-8 by construction here, so the source's
`utf8.ValidString` tests always pass.
-/

namespace PowerManage.Store

/-! ## Character classes and trimming -/

/-- Go's `unicode.IsSpace`. -/
def isSpace (c : Char) : Bool :=
  let n := c.toNat
  (9 ≤ n && n ≤ 13) || n == 32 || n == 0x85 || n == 0xA0 || n == 0x1680 ||
    (0x2000 ≤ n && n ≤ 0x200A) || n == 0x2028 || n == 0x2029 || n == 0x202F ||
    n == 0x205F || n == 0x3000

/-- Go's `unicode.IsControl`. -/
def isControl (c : Char) : Bool :=
  let n := c.toNat
  n < 32 || (0x7F ≤ n && n ≤ 0x9F)

/-- Go's `strings.TrimSpace`. -/
def trimSpace (s : String) : String :=
  String.ofList (((s.toList.dropWhile isSpace).reverse.dropWhile isSpace).reverse)

/-- Go's `len` of a string: its UTF-8 bytes. -/
def byteLen (s : String) : Nat :=
  s.utf8ByteSize

/-- Uppercase of ASCII text; identifiers are ASCII once validated. -/
def toUpper (s : String) : String :=
  String.ofList (s.toList.map Char.toUpper)

/-- Capitals stay as they are. -/
theorem toUpper_char_toUpper (c : Char) : c.toUpper.toUpper = c.toUpper := by
  unfold Char.toUpper
  split
  · rename_i h
    rw [dif_neg]
    simp only [UInt32.le_iff_toNat_le, UInt32.toNat_add] at h ⊢
    intro h'
    have ha : 'a'.val.toNat = 97 := rfl
    have hz : 'z'.val.toNat = 122 := rfl
    have hshift : ('A'.val - 'a'.val).toNat = 4294967264 := rfl
    omega
  · rfl

/-- Folding a second time changes nothing. -/
theorem toUpper_toUpper (s : String) : toUpper (toUpper s) = toUpper s := by
  simp only [toUpper, String.toList_ofList, List.map_map, Function.comp_def, toUpper_char_toUpper]

/-- `c` lies between two characters. -/
def charBetween (low high c : Char) : Bool :=
  low ≤ c && c ≤ high

/-! ## Identifiers -/

/-- The ULID alphabet of `sdk/validate`. -/
def crockfordBase32 : List Char :=
  "0123456789ABCDEFGHJKMNPQRSTVWXYZ".toList

/-- The fixed length of a ULID. -/
def ulidLen : Nat := 26

/-- Go's `invalidf`: the single validation sentinel with a reason. -/
def invalidf (reason : String) : String :=
  "validate: invalid value: " ++ reason

/-- `validate.ULIDPathID`: length, alphabet (either case), then 128-bit range. -/
def ulidPathID (id : String) : Except String Unit :=
  if byteLen id ≠ ulidLen then
    .error (invalidf ("ULID must be " ++ toString ulidLen ++ " characters, got " ++
      toString (byteLen id)))
  else if ¬ id.toList.all fun c => crockfordBase32.contains c.toUpper then
    .error (invalidf "ULID contains a non-Crockford-base32 character")
  else if ¬ (id.toList.head?.any (charBetween '0' '7')) then
    .error (invalidf "ULID overflows 128 bits (first character exceeds 7)")
  else .ok ()

/-- Validate an identifier and fold it to upper case. -/
def canonicalULID (id : String) : Except String String :=
  (ulidPathID id).map fun _ => toUpper id

/-- The identifier is already in canonical form. -/
def isCanonicalID (id : String) : Bool :=
  match canonicalULID id with
  | .ok canonical => canonical == id
  | .error _ => false

/-- The Postgres check `^[0-7][0-9A-HJKMNP-TV-Z]\x7b25\x7d$`. -/
def ulidCheck (id : String) : Bool :=
  id.toList.length == ulidLen && id.toList.all crockfordBase32.contains &&
    id.toList.head?.any (charBetween '0' '7')

/-- Text in one-byte characters has as many bytes as characters. -/
theorem byteLen_of_ascii {s : String} (h : ∀ c ∈ s.toList, c.utf8Size = 1) :
    byteLen s = s.toList.length := by
  have hsize : ∀ cs : List Char, (∀ c ∈ cs, c.utf8Size = 1) →
      (String.ofList cs).utf8ByteSize = cs.length := by
    intro cs hcs
    induction cs with
    | nil => rfl
    | cons c cs ih =>
      have hc := hcs c List.mem_cons_self
      have hrest := ih (List.forall_mem_cons.mp hcs).2
      simp only [String.ofList_cons, String.utf8ByteSize_append, String.utf8ByteSize_singleton,
        List.length_cons]
      omega
  have := hsize s.toList h
  rwa [String.ofList_toList] at this

/-- What passes the column check passes `ULIDPathID`. -/
theorem ulidPathID_of_ulidCheck {id : String} (h : ulidCheck id = true) :
    ulidPathID id = .ok () := by
  have halphabet : (crockfordBase32.all fun c =>
      c.utf8Size == 1 && crockfordBase32.contains c.toUpper) = true := by decide
  simp only [List.all_eq_true, Bool.and_eq_true, beq_iff_eq] at halphabet
  simp only [ulidCheck, Bool.and_eq_true, beq_iff_eq, List.all_eq_true, List.contains_iff_mem]
    at h
  obtain ⟨⟨hlength, hall⟩, hhead⟩ := h
  have hbytes : byteLen id = ulidLen := by
    rw [byteLen_of_ascii fun c hc => (halphabet c (hall c hc)).1, hlength]
  have hupper : (id.toList.all fun c => crockfordBase32.contains c.toUpper) = true :=
    List.all_eq_true.mpr fun c hc => (halphabet c (hall c hc)).2
  simp only [ulidPathID, hbytes, hupper, hhead, ne_eq, not_true_eq_false, if_false]

/-! ## Names and bounded text -/

/-- The text starts with a lower-case letter and continues within a class. -/
def startsLowerThen (allowed : Char → Bool) (s : String) : Bool :=
  match s.toList with
  | [] => false
  | c :: cs => charBetween 'a' 'z' c && cs.all allowed

def validProviderSlug (value : String) : Bool :=
  byteLen value ≤ 64 &&
    startsLowerThen (fun c => charBetween 'a' 'z' c || charBetween '0' '9' c || c == '-') value

/-- `validRoleName`, in the store and in `authz`. -/
def validRoleName (role : String) : Bool :=
  role == trimSpace role && byteLen role ≤ 64 &&
    startsLowerThen (fun c => charBetween 'a' 'z' c || charBetween '0' '9' c ||
      c == '-' || c == '_' || c == '.') role

/-- `validBoundedText`: non-empty, bounded, without NUL. -/
def validBoundedText (value : String) (maximum : Nat) : Bool :=
  0 < byteLen value && byteLen value ≤ maximum && !value.toList.contains '\x00'

/-- Postgres `octet_length(value) BETWEEN low AND high` on text, which holds no NUL. -/
def octetsBetween (low high : Nat) (value : String) : Bool :=
  low ≤ byteLen value && byteLen value ≤ high && !value.toList.contains '\x00'

/-- Go's `slices.IsSorted` on strings. -/
def isSortedText (xs : List String) : Bool :=
  decide (xs.Pairwise (· ≤ ·))

/-- Go's `slices.Sort` on strings. -/
def sortText (xs : List String) : List String :=
  xs.insertionSort (· ≤ ·)

/-- No text occurs twice. -/
def noDuplicates (xs : List String) : Bool :=
  decide xs.Nodup

end PowerManage.Store
