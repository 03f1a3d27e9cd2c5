import Ppb.Common.Text

/-!
# Searching and cutting a `str`

* `find c s`: the place of a character, in bytes, and `sliceFrom s n`: `&s[n..]`. What `find`
  returns is a boundary, and so is the place behind it (`find_append`).
* `isCharBoundary_of_asBytes`: a byte that starts a character stands at a boundary.
* `splitOnce`: the text up to the next white space, and the text behind it.
-/

namespace Ppb.Text

/-- `&s[n..]`. -/
def sliceFrom (s : List Char) (n : ℕ) : Option (List Char) :=
  (sliceTo s n).map fun p => s.drop p.length

/-- `s.find(c)`. -/
def find (c : Char) (s : List Char) : Option ℕ :=
  if c ∈ s then some (byteLen (s.takeWhile (· != c))) else none

/-- `s.as_bytes()`. -/
def asBytes (s : List Char) : List UInt8 := s.flatMap String.utf8EncodeChar

/-- `s.trim_start()`. -/
def trimStart (s : List Char) : List Char := s.dropWhile isWhitespace

/-- The text before the first white space, and, if there is one, that behind it. -/
def splitOnce (s : List Char) : List Char × Option (List Char) :=
  (s.takeWhile fun c => !isWhitespace c, (s.dropWhile fun c => !isWhitespace c).tail?)

variable {c : Char} {p q s t w : List Char}

/-! ## Slices -/

theorem sliceTo_append (p q : List Char) : sliceTo (p ++ q) (byteLen p) = some p :=
  (sliceTo_spec _ _ _).mpr ⟨List.prefix_append p q, rfl⟩

theorem sliceFrom_append (p q : List Char) : sliceFrom (p ++ q) (byteLen p) = some q := by
  rw [sliceFrom, sliceTo_append, Option.map_some, List.drop_left]

theorem sliceFrom_behind (hc : c.utf8Size = 1) (p q : List Char) :
    sliceFrom (p ++ c :: q) (byteLen p + 1) = some q := by
  have h := sliceFrom_append (p ++ [c]) q
  rw [byteLen_append, byteLen_cons, byteLen_nil, hc, List.append_assoc] at h
  exact h

/-- A character that is there is found behind what has none of it. -/
theorem find_append (hc : c ∉ p) (q : List Char) : find c (p ++ c :: q) = some (byteLen p) := by
  have hbefore : ∀ d ∈ p, (d != c) = true := fun d hd =>
    bne_iff_ne.mpr fun heq => hc (heq ▸ hd)
  rw [find, if_pos (by simp), List.takeWhile_append_of_pos hbefore, List.takeWhile_cons,
    if_neg (by simp), List.append_nil]

theorem exists_of_find {n : ℕ} (h : find c s = some n) :
    ∃ p q, s = p ++ c :: q ∧ c ∉ p ∧ n = byteLen p := by
  have hmem : c ∈ s := by
    by_contra hnot
    rw [find, if_neg hnot] at h
    cases h
  obtain ⟨p, q, rfl, hp⟩ := List.eq_append_cons_of_mem hmem
  rw [find_append hp] at h
  exact ⟨p, q, rfl, hp, (Option.some.inj h).symm⟩

/-! ## Bytes -/

/-- A byte that can start a character stands at the start of one. -/
theorem isCharBoundary_of_asBytes {n : ℕ} {b : UInt8} (hb : b.IsUTF8FirstByte)
    (h : (asBytes s)[n]? = some b) : IsCharBoundary s n := by
  induction s generalizing n with
  | nil => simp [asBytes] at h
  | cons c s ih =>
    rcases Nat.eq_zero_or_pos n with rfl | hn
    · exact ⟨0, Nat.zero_le _, rfl⟩
    · rw [asBytes, List.flatMap_cons, ← asBytes] at h
      by_cases hin : n < (String.utf8EncodeChar c).length
      · rw [List.getElem?_append_left hin, List.getElem?_eq_getElem hin] at h
        rw [← Option.some.inj h, UInt8.isUTF8FirstByte_getElem_utf8EncodeChar] at hb
        omega
      · rw [List.getElem?_append_right (not_lt.mp hin)] at h
        obtain ⟨k, hk, hlen⟩ := ih h
        rw [String.length_utf8EncodeChar] at hin hlen
        refine ⟨k + 1, Nat.succ_le_succ hk, ?_⟩
        rw [List.take_succ_cons, byteLen_cons, hlen]
        omega

theorem length_asBytes (s : List Char) : (asBytes s).length = byteLen s := by
  simp [asBytes, byteLen, List.length_flatMap]

/-! ## White space -/

theorem trimStart_append (hw : ∀ c ∈ w, isWhitespace c = true) (s : List Char) :
    trimStart (w ++ s) = trimStart s := List.dropWhile_append_of_pos hw

theorem trimStart_of_head (h : ∀ c, s.head? = some c → isWhitespace c = false) :
    trimStart s = s := by
  cases s with
  | nil => rfl
  | cons c s => rw [trimStart, List.dropWhile_cons_of_neg (by rw [h c rfl]; decide)]

/-- White space ends the text before it. -/
theorem splitOnce_append (hp : ∀ c ∈ p, isWhitespace c = false) (hc : isWhitespace c = true)
    (q : List Char) : splitOnce (p ++ c :: q) = (p, some q) := by
  have hword : ∀ d ∈ p, (fun d => !isWhitespace d) d = true := fun d hd => by simp [hp d hd]
  rw [splitOnce, List.takeWhile_append_of_pos hword, List.dropWhile_append_of_pos hword,
    List.takeWhile_cons_of_neg (by simp [hc]), List.dropWhile_cons_of_neg (by simp [hc]),
    List.append_nil]
  rfl

/-- Neither the first nor the last character is white space. -/
structure Trimmed (s : List Char) : Prop where
  head : ∀ c ∈ s.head?, isWhitespace c = false
  last : ∀ c ∈ s.getLast?, isWhitespace c = false

theorem Trimmed.append (hp : p ≠ []) (hhead : ∀ c ∈ p.head?, isWhitespace c = false)
    (hq : Trimmed q) (hne : q ≠ []) : Trimmed (p ++ q) := by
  refine ⟨fun c hc => ?_, fun c hc => ?_⟩
  · rw [List.head?_append_of_ne_nil _ hp] at hc
    exact hhead c hc
  · rw [List.getLast?_append_of_ne_nil _ hne] at hc
    exact hq.last c hc

theorem Trimmed.trim (h : Trimmed s) : trim (String.ofList s) = String.ofList s := by
  have hreverse : ∀ c, s.reverse.head? = some c → isWhitespace c = false := by
    intro c hc
    rw [List.head?_reverse] at hc
    exact h.last c hc
  have hstart := trimStart_of_head h.head
  have hend := trimStart_of_head hreverse
  rw [trimStart] at hstart hend
  rw [Text.trim, String.toList_ofList, hstart, hend, List.reverse_reverse]

end Ppb.Text
