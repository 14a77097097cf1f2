import Testos.Foundation.First
import Testos.Lib.Compare

/-! The searches of `string.c`.

`strstr_first`: `strstr` finds the first occurrence, reading neither string past its NUL,
for `strncmp` stops at the NUL of a haystack that is too short. `strchr` and `memchr`
both look for a character given as an `int`, but only `memchr` converts it to one:
`strchr_memchr_iff` says when they agree.

A pointer that is returned is its distance from the argument, or `none` for NULL. -/
namespace Testos.Lib
open Foundation

/-! ### The loops -/

/-- `strchr`, `i` bytes on. A `char` is unsigned, so `*s == c` extends it with zeros. -/
def strchrLoop (s : Bytes) (c : BitVec 32) : Nat → Nat → Option (Option Nat)
  | 0, _ => none
  | fuel + 1, i =>
    (s i).bind fun a =>
      if a ≠ 0 then if a.setWidth 32 = c then some (some i) else strchrLoop s c fuel (i + 1)
      else some (if c = 0 then some i else none)

/-- `strchr`. -/
def strchr (s : CString) (c : BitVec 32) : Option (Option Nat) := strchrLoop s.at? c (s.length + 1) 0

/-- `memchr`, `i` bytes on, with `n` to go. -/
def memchrLoop (s : Bytes) (c : BitVec 32) : Nat → Nat → Option (Option Nat)
  | 0, _ => some none
  | n + 1, i =>
    (s i).bind fun a => if a = c.setWidth 8 then some (some i) else memchrLoop s c n (i + 1)

/-- `memchr`. -/
def memchr (s : Bytes) (c : BitVec 32) (n : Nat) : Option (Option Nat) := memchrLoop s c n 0

/-- The loop of `strstr`, `i` bytes on. -/
def strstrLoop (haystack needle : Bytes) (needleLen : Nat) : Nat → Nat → Option (Option Nat)
  | 0, _ => none
  | fuel + 1, i =>
    (haystack i).bind fun a =>
      if a ≠ 0 then
        (strncmp (fun j => haystack (i + j)) needle needleLen).bind fun r =>
          if r = 0 then some (some i) else strstrLoop haystack needle needleLen fuel (i + 1)
      else some none

/-- `strstr`. -/
def strstr (haystack needle : CString) : Option (Option Nat) :=
  (strlenLoop needle.at? (needle.length + 1) 0).bind fun needleLen =>
    if needleLen = 0 then some (some 0)
    else strstrLoop haystack.at? needle.at? needleLen (haystack.length + 1) 0

/-! ### Places in a string -/

theorem Here.drop {s : CString} {i : Nat} {rest : List Byte} (h : Here s i rest) : s.bytes.drop i = rest := by
  obtain ⟨before, hbytes, rfl⟩ := h
  rw [hbytes, List.drop_left]

theorem Here.noNul {s : CString} {i : Nat} {rest : List Byte} (h : Here s i rest) : (0 : Byte) ∉ rest :=
  fun h0 => s.noNul (List.mem_of_mem_drop (h.drop ▸ h0))

/-- A pointer into a string points to the string that is left. -/
theorem Here.suffix {s : CString} {i : Nat} {rest : List Byte} (h : Here s i rest) :
    (fun j => s.at? (i + j)) = CString.at? ⟨rest, h.noNul⟩ := by
  generalize h.noNul = hrest
  obtain ⟨before, hbytes, rfl⟩ := h
  funext j
  rw [CString.at?_eq, CString.at?_eq, hbytes, List.append_assoc, List.getElem?_append_right (Nat.le_add_right _ _),
    Nat.add_sub_cancel_left]

/-! ### Occurrences -/

/-- The needle begins at this place of the haystack. -/
def OccursAt (haystack needle : CString) (i : Nat) : Prop := needle.bytes <+: haystack.bytes.drop i

/-- `strncmp` over the needle's length tells whether the needle is there. -/
theorem strncmp_occurs {haystack : CString} (needle : CString) {i : Nat} {rest : List Byte}
    (h : Here haystack i rest) :
    ∃ r, strncmp (fun j => haystack.at? (i + j)) needle.at? needle.length = some r ∧
      (r = 0 ↔ OccursAt haystack needle i) := by
  refine ⟨strcmpFrom (rest.take needle.length) (needle.bytes.take needle.length), ?_, ?_⟩
  · rw [h.suffix]
    exact strncmpLoop_eq (.start _) (.start needle) needle.length
  · have hwhole : needle.bytes.take needle.length = needle.bytes := List.take_length
    rw [hwhole, strcmpFrom_eq_zero (fun h0 => h.noNul (List.mem_of_mem_take h0)) needle.noNul, OccursAt, h.drop,
      List.prefix_iff_eq_take]
    exact eq_comm

theorem strstrLoop_first {haystack needle : CString} (hne : needle.bytes ≠ []) {i : Nat} {rest : List Byte}
    (h : Here haystack i rest) {fuel : Nat} (hfuel : rest.length < fuel) :
    ∃ place, strstrLoop haystack.at? needle.at? needle.length fuel i = some place ∧
      FirstFrom (OccursAt haystack needle) i place := by
  induction rest generalizing i fuel with
  | nil =>
    obtain ⟨fuel, rfl⟩ := Nat.exists_eq_succ_of_ne_zero (Nat.ne_of_gt hfuel)
    refine ⟨none, by simp [strstrLoop, h.nul], fun j hj hoccurs => ?_⟩
    -- from the NUL on, nothing is left to hold a needle that is not empty
    have hend : haystack.bytes.length ≤ i := List.drop_eq_nil_iff.mp h.drop
    rw [OccursAt, List.drop_eq_nil_iff.mpr (Nat.le_trans hend hj), List.prefix_nil] at hoccurs
    exact hne hoccurs
  | cons c rest ih =>
    obtain ⟨fuel, rfl⟩ := Nat.exists_eq_succ_of_ne_zero (show fuel ≠ 0 by omega)
    obtain ⟨hread, hc, hnext⟩ := h.read
    obtain ⟨r, hr, hoccurs⟩ := strncmp_occurs needle h
    rw [strstrLoop, hread, Option.bind_some, if_pos hc, hr, Option.bind_some]
    by_cases h0 : r = 0
    · rw [if_pos h0]
      exact ⟨some i, rfl, .found (hoccurs.mp h0)⟩
    · rw [if_neg h0]
      obtain ⟨place, hplace, hfirst⟩ := ih hnext (Nat.lt_of_succ_lt_succ hfuel)
      exact ⟨place, hplace, .skip (fun hhere => h0 (hoccurs.mpr hhere)) hfirst⟩

/-- **The first occurrence.** On any strings `strstr` reads no byte past either NUL and
returns the first place of the haystack where the needle is, NULL if there is none; the
empty needle is at its beginning. -/
theorem strstr_first (haystack needle : CString) :
    ∃ place, strstr haystack needle = some place ∧ FirstFrom (OccursAt haystack needle) 0 place ∧
      (needle.bytes = [] → place = some 0) := by
  have hlen : strlenLoop needle.at? (needle.length + 1) 0 = some needle.length := by
    rw [strlenLoop_eq (.start needle) (show needle.bytes.length < needle.length + 1 from Nat.lt_succ_self _),
      Nat.zero_add]
    rfl
  rw [strstr, hlen, Option.bind_some]
  by_cases h0 : needle.length = 0
  · have hnil : needle.bytes = [] := List.length_eq_zero_iff.mp h0
    rw [if_pos h0]
    refine ⟨some 0, rfl, .found ?_, fun _ => rfl⟩
    rw [OccursAt, hnil]
    exact List.nil_prefix
  · have hne : needle.bytes ≠ [] := fun hnil => h0 (List.length_eq_zero_iff.mpr hnil)
    rw [if_neg h0]
    obtain ⟨place, hplace, hfirst⟩ := strstrLoop_first hne (.start haystack) (Nat.lt_succ_self _)
    exact ⟨place, hplace, hfirst, fun hnil => absurd hnil hne⟩

/-! ### Characters -/

/-- The byte at this place, the terminator's included, is `c` as a `char`. -/
def CharAt (s : CString) (c : BitVec 32) (i : Nat) : Prop := s.at? i = some (c.setWidth 8)

/-- The byte at this place is `c` as it is. -/
def IntAt (s : CString) (c : BitVec 32) (i : Nat) : Prop := ∃ a, s.at? i = some a ∧ a.setWidth 32 = c

section Here
variable {s : CString} {c : BitVec 32} {i : Nat} {a : Byte} (h : s.at? i = some a)
include h

theorem charAt_here : CharAt s c i ↔ a = c.setWidth 8 := by
  rw [CharAt, h, Option.some_inj]

theorem intAt_here : IntAt s c i ↔ a.setWidth 32 = c := by
  simp [IntAt, h]

end Here

/-- No character is behind the NUL. -/
theorem none_beyond {s : CString} {P : Nat → Prop} (hP : ∀ j, P j → ∃ a, s.at? j = some a) {i : Nat}
    (h : Here s i []) : FirstFrom P (i + 1) none := by
  intro j hj hp
  obtain ⟨a, ha⟩ := hP j hp
  have hend : s.bytes.length ≤ i := List.drop_eq_nil_iff.mp h.drop
  rw [CString.at?_beyond (show s.bytes.length < j by omega)] at ha
  cases ha

theorem memchrLoop_first {s : CString} (c : BitVec 32) {i : Nat} {rest : List Byte} (h : Here s i rest) :
    ∃ place, memchrLoop s.at? c (rest.length + 1) i = some place ∧ FirstFrom (CharAt s c) i place := by
  induction rest generalizing i with
  | nil =>
    have hhere := charAt_here (c := c) h.nul
    rw [List.length_nil, Nat.zero_add, memchrLoop, h.nul, Option.bind_some]
    by_cases hc : 0 = c.setWidth 8
    · rw [if_pos hc]
      exact ⟨some i, rfl, .found (hhere.mpr hc)⟩
    · rw [if_neg hc]
      exact ⟨none, rfl, .skip (fun hchar => hc (hhere.mp hchar)) (none_beyond (fun _ hj => ⟨_, hj⟩) h)⟩
  | cons a rest ih =>
    obtain ⟨hread, _, hnext⟩ := h.read
    obtain ⟨place, hplace, hfirst⟩ := ih hnext
    have hhere := charAt_here (c := c) hread
    rw [List.length_cons, memchrLoop, hread, Option.bind_some]
    by_cases hc : a = c.setWidth 8
    · rw [if_pos hc]
      exact ⟨some i, rfl, .found (hhere.mpr hc)⟩
    · rw [if_neg hc]
      exact ⟨place, hplace, .skip (fun hchar => hc (hhere.mp hchar)) hfirst⟩

theorem strchrLoop_first {s : CString} (c : BitVec 32) {i : Nat} {rest : List Byte} (h : Here s i rest)
    {fuel : Nat} (hfuel : rest.length < fuel) :
    ∃ place, strchrLoop s.at? c fuel i = some place ∧ FirstFrom (IntAt s c) i place := by
  induction rest generalizing i fuel with
  | nil =>
    obtain ⟨fuel, rfl⟩ := Nat.exists_eq_succ_of_ne_zero (Nat.ne_of_gt hfuel)
    have hhere := intAt_here (c := c) h.nul
    rw [strchrLoop, h.nul, Option.bind_some, if_neg fun hne => hne rfl]
    by_cases hc : c = 0
    · rw [if_pos hc]
      exact ⟨some i, rfl, .found (hhere.mpr hc.symm)⟩
    · rw [if_neg hc]
      exact ⟨none, rfl, .skip (fun hint => hc (hhere.mp hint).symm)
        (none_beyond (fun _ hj => hj.imp fun _ ha => ha.1) h)⟩
  | cons a rest ih =>
    obtain ⟨fuel, rfl⟩ := Nat.exists_eq_succ_of_ne_zero (show fuel ≠ 0 by omega)
    obtain ⟨hread, hne, hnext⟩ := h.read
    obtain ⟨place, hplace, hfirst⟩ := ih hnext (Nat.lt_of_succ_lt_succ hfuel)
    have hhere := intAt_here (c := c) hread
    rw [strchrLoop, hread, Option.bind_some, if_pos hne]
    by_cases hc : a.setWidth 32 = c
    · rw [if_pos hc]
      exact ⟨some i, rfl, .found (hhere.mpr hc)⟩
    · rw [if_neg hc]
      exact ⟨place, hplace, .skip (fun hint => hc (hhere.mp hint)) hfirst⟩

/-- Without what the conversion cuts off, the two characters are one. -/
theorem intAt_iff_charAt {c : BitVec 32} (hlo : 0 ≤ c.toInt) (hhi : c.toInt ≤ 255) (s : CString) (i : Nat) :
    IntAt s c i ↔ CharAt s c i := by
  have hnat : c.toNat < 2 ^ 8 := by
    have hint := BitVec.toInt_eq_toNat_cond c
    have hlt := c.isLt
    split at hint <;> omega
  have hextend : (c.setWidth 8).setWidth 32 = c := by
    apply BitVec.eq_of_toNat_eq
    rw [BitVec.toNat_setWidth, BitVec.toNat_setWidth, Nat.mod_eq_of_lt hnat, Nat.mod_eq_of_lt c.isLt]
  constructor
  · intro hint
    obtain ⟨a, ha, rfl⟩ := hint
    rw [CharAt, ha, BitVec.setWidth_setWidth_of_le _ (by decide), BitVec.setWidth_eq]
  · intro hchar
    exact ⟨c.setWidth 8, hchar, hextend⟩

/-- A number no character has is nowhere. -/
theorem not_intAt {c : BitVec 32} (h : ¬ (0 ≤ c.toInt ∧ c.toInt ≤ 255)) (s : CString) (i : Nat) : ¬ IntAt s c i := by
  intro hint
  obtain ⟨a, _, rfl⟩ := hint
  have hnat : (a.setWidth 32).toNat = a.toNat := by
    rw [BitVec.toNat_setWidth, Nat.mod_eq_of_lt (Nat.lt_trans a.isLt (by decide))]
  have hlt := a.isLt
  rw [BitVec.toInt_eq_toNat_of_lt (by omega), hnat] at h
  omega

/-- The bytes `memchr` looks at are the string's and its NUL. -/
theorem exists_charAt {s : CString} {c : BitVec 32} :
    (∃ i, CharAt s c i) ↔ c.setWidth 8 = 0 ∨ c.setWidth 8 ∈ s.bytes := by
  simp only [CharAt, CString.at?_eq, ← List.mem_iff_getElem?, List.mem_append, List.mem_singleton]
  exact or_comm

/-- **The character search agrees with the memory search** on the first place of `c` as a
`char` exactly when `c` is a `char` already, or its low byte is neither in the string nor
a NUL. -/
theorem strchr_memchr_iff (s : CString) (c : BitVec 32) :
    (∃ place, strchr s c = some place ∧ memchr s.at? c (s.length + 1) = some place ∧
        FirstFrom (CharAt s c) 0 place) ↔
      (0 ≤ c.toInt ∧ c.toInt ≤ 255) ∨ (c.setWidth 8 ≠ 0 ∧ c.setWidth 8 ∉ s.bytes) := by
  obtain ⟨place, hmemchr, hchar⟩ := memchrLoop_first c (.start s)
  obtain ⟨place', hstrchr, hint⟩ := strchrLoop_first c (.start s) (Nat.lt_succ_self _)
  by_cases hrange : 0 ≤ c.toInt ∧ c.toInt ≤ 255
  · -- both look for the same byte
    have hsame := hchar.unique (hint.congr (intAt_iff_charAt hrange.1 hrange.2 s))
    exact ⟨fun _ => .inl hrange, fun _ => ⟨place, hsame ▸ hstrchr, hmemchr, hchar⟩⟩
  · -- `strchr` finds nothing
    have hnone : place' = none := hint.unique fun j _ => not_intAt hrange s j
    have habsent : place = none ↔ c.setWidth 8 ≠ 0 ∧ c.setWidth 8 ∉ s.bytes := by
      rw [← not_or, ← exists_charAt, not_exists]
      constructor
      · intro hplace j
        rw [hplace] at hchar
        exact hchar j (Nat.zero_le j)
      · intro hno
        exact hchar.unique fun j _ => hno j
    rw [or_iff_right hrange, ← habsent]
    constructor
    · intro h
      obtain ⟨both, hboth, hboth', _⟩ := h
      have hplace : place = both := Option.some.inj (hmemchr.symm.trans hboth')
      have hplace' : place' = both := Option.some.inj (hstrchr.symm.trans hboth)
      rw [hplace, ← hplace', hnone]
    · intro hplace
      exact ⟨place, by rw [hplace, ← hnone]; exact hstrchr, hmemchr, hchar⟩

/-- `256 + 'a'` is a character to `memchr` only, and so is every multiple of 256, which
`memchr` finds at the terminator. -/
theorem strchr_wide :
    (strchr (.lit "a") 0x161 = some none ∧ memchr (CString.lit "a").at? 0x161 2 = some (some 0)) ∧
      (strchr (.lit "a") 0x100 = some none ∧ memchr (CString.lit "a").at? 0x100 2 = some (some 1)) ∧
      ¬ ∃ place, strchr (.lit "a") 0x161 = some place ∧
        memchr (CString.lit "a").at? 0x161 ((CString.lit "a").length + 1) = some place ∧
        FirstFrom (CharAt (.lit "a") 0x161) 0 place := by
  refine ⟨by decide, by decide, fun h => ?_⟩
  obtain ⟨place, hstrchr, hmemchr, _⟩ := h
  have hnull : strchr (.lit "a") 0x161 = some none := by decide
  have hfound : memchr (CString.lit "a").at? 0x161 ((CString.lit "a").length + 1) = some (some 0) := by decide
  rw [hnull] at hstrchr
  rw [hfound] at hmemchr
  rw [← Option.some.inj hstrchr] at hmemchr
  cases hmemchr

end Testos.Lib
