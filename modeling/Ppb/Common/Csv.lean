import Ppb.Common.Legible

/-!
# Reading CSV (RFC 4180)

Fields are separated by commas, and records end with LF or CRLF; the last one may do without.
A field in quotes may hold any characters, a quote in it being doubled. Outside quotes there is
no quote, and no CR that is not the first half of CRLF.

* `read`: the records of a text, `none` if it is not CSV.
* `read_plain`, `read_quote`, `read_bare_cr`: what a field is read as, without and in quotes, and
  with a CR that should have been in quotes.
* `readFrom_lines_iff`: a list of records comes back from its lines exactly if every field does.
-/

namespace Ppb.Csv

/-- Where the reader stands: before a field, in it, in quotes, behind the closing quote, or
    behind a CR. -/
inductive Mode where
  | start | plain | quoted | closed | cr
  deriving DecidableEq, Repr

/-- The records of the text, after the characters `field` of the field and the fields `record`
    of the record in progress. -/
def readFrom : Mode → List Char → List (List Char) → List Char → Option (List (List (List Char)))
  | .start, field, record, [] => if record = [] then some [] else some [record ++ [field]]
  | .plain, field, record, [] | .closed, field, record, [] => some [record ++ [field]]
  | .quoted, _, _, [] | .cr, _, _, [] => none
  | .quoted, field, record, c :: s =>
    if c = '"' then readFrom .closed field record s else readFrom .quoted (field ++ [c]) record s
  | .cr, field, record, c :: s =>
    if c = '\n' then (readFrom .start [] [] s).map ((record ++ [field]) :: ·) else none
  | mode, field, record, c :: s =>
    if c = ',' then readFrom .start [] (record ++ [field]) s
    else if c = '\n' then (readFrom .start [] [] s).map ((record ++ [field]) :: ·)
    else if c = '\r' then readFrom .cr field record s
    else if c = '"' then
      match mode with
      | .start => readFrom .quoted [] record s
      | .closed => readFrom .quoted (field ++ ['"']) record s
      | _ => none
    else if mode = .closed then none
    else readFrom .plain (field ++ [c]) record s

/-- The records of a text. -/
def read (text : String) : Option (List (List String)) :=
  (readFrom .start [] [] text.toList).map fun records => records.map fun r => r.map String.ofList

/-! ## Fields -/

attribute [local simp] readFrom

variable {field s r : List Char} {record : List (List Char)} {c : Char}

/-- A character that stands for itself outside quotes. -/
def isPlain (c : Char) : Bool := c != ',' && c != '\n' && c != '\r' && c != '"'

/-- The end of a field. -/
def IsEnd (c : Char) : Prop := c = ',' ∨ c = '\n'

theorem readFrom_plain_cons (hc : isPlain c = true) :
    readFrom .plain field record (c :: s) = readFrom .plain (field ++ [c]) record s := by
  simp only [isPlain, Bool.and_eq_true, bne_iff_ne] at hc
  simp [hc]

theorem readFrom_plain (hs : ∀ c ∈ s, isPlain c = true) :
    readFrom .plain field record (s ++ r) = readFrom .plain (field ++ s) record r := by
  induction s generalizing field with
  | nil => simp
  | cons c s ih =>
    rw [List.forall_mem_cons] at hs
    rw [List.cons_append, readFrom_plain_cons hs.1, ih hs.2, List.append_assoc]
    rfl

/-- Before a field or in an empty one is the same, up to a quote. -/
theorem readFrom_start_cons (hc : c ≠ '"') :
    readFrom .start [] record (c :: s) = readFrom .plain [] record (c :: s) := by
  simp [hc]

/-- A field without special characters. -/
theorem read_plain (hs : ∀ c ∈ s, isPlain c = true) (hc : c ≠ '"') :
    readFrom .start [] record (s ++ c :: r) = readFrom .plain s record (c :: r) := by
  have hstart : readFrom .start [] record (s ++ c :: r) =
      readFrom .plain [] record (s ++ c :: r) := by
    cases s with
    | nil => exact readFrom_start_cons hc
    | cons d s =>
      have hd : d ≠ '"' := by
        rintro rfl
        exact absurd (hs '"' List.mem_cons_self) (by decide)
      exact readFrom_start_cons hd
  rw [hstart, readFrom_plain hs, List.nil_append]

/-- `"` is doubled. -/
def double (c : Char) : List Char := if c = '"' then ['"', '"'] else [c]

theorem readFrom_quoted (s : List Char) :
    readFrom .quoted field record (s.flatMap double ++ '"' :: r) =
      readFrom .closed (field ++ s) record r := by
  induction s generalizing field with
  | nil => simp
  | cons c s ih =>
    rw [List.flatMap_cons, List.append_assoc, double]
    by_cases hc : c = '"'
    · subst hc
      simp [ih]
    · simp [hc, ih]

/-- A field in quotes. -/
theorem read_quote (hc : IsEnd c) :
    readFrom .start [] record ('"' :: (s.flatMap double ++ '"' :: c :: r)) =
      readFrom .plain s record (c :: r) := by
  have hopen : readFrom .start [] record ('"' :: (s.flatMap double ++ '"' :: c :: r)) =
      readFrom .quoted [] record (s.flatMap double ++ '"' :: c :: r) := by
    simp
  rw [hopen, readFrom_quoted, List.nil_append]
  rcases hc with rfl | rfl
  · simp
  · simp

/-- A CR in a field that is not in quotes: the record ends there, without the CR, or the text is
    no CSV. -/
theorem read_bare_cr {p q : List Char} (hp : ∀ c ∈ p, isPlain c = true) (hq : '\n' ∉ q) :
    readFrom .start [] record (p ++ '\r' :: (q ++ c :: r)) =
      if q = [] ∧ c = '\n' then (readFrom .start [] [] r).map ((record ++ [p]) :: ·) else none := by
  rw [read_plain hp (by decide)]
  cases q with
  | nil => simp
  | cons d q =>
    have hd : d ≠ '\n' := by
      rintro rfl
      exact hq List.mem_cons_self
    simp [hd]

/-- A field and a comma behind it. -/
theorem readFrom_comma :
    readFrom .plain field record (',' :: s) = readFrom .start [] (record ++ [field]) s := by
  simp

/-- A field and the end of a line behind it. -/
theorem readFrom_newline : readFrom .plain field record ('\n' :: s) =
    (readFrom .start [] [] s).map ((record ++ [field]) :: ·) := by
  simp

/-! ## Lines -/

section Lines

variable (code : List Char → List Char)

/-- The field comes back from its code. -/
def Kept (s : List Char) : Prop :=
  ∀ ⦃record c r⦄, IsEnd c →
    readFrom .start [] record (code s ++ c :: r) = readFrom .plain s record (c :: r)

/-- At most a part of the field comes back, and that at the end of a line. -/
def Lost (s : List Char) : Prop :=
  ∃ p ≠ s, ∀ ⦃record c r out⦄, IsEnd c →
    readFrom .start [] record (code s ++ c :: r) = some out →
      c = '\n' ∧ out.head? = some (record ++ [p])

def line (fields : List (List Char)) : List Char := separated ',' code fields ++ ['\n']

variable {code} {fields : List (List Char)} {records : List (List (List Char))}

theorem Lost.not_kept (h : Lost code s) : ¬ Kept code s := by
  intro hkept
  obtain ⟨p, hp, hlost⟩ := h
  have hread : readFrom .start [] [] (code s ++ ['\n']) = some [[s]] := by
    rw [hkept (.inr rfl), readFrom_newline]
    rfl
  have hhead := (hlost (.inr rfl) hread).2
  simp [Ne.symm hp] at hhead

theorem separated_cons_cons (s t : List Char) (fields : List (List Char)) (r : List Char) :
    separated ',' code (s :: t :: fields) ++ '\n' :: r =
      code s ++ ',' :: (separated ',' code (t :: fields) ++ '\n' :: r) :=
  separated_cons_append ',' '\n' s (t :: fields) r

theorem readFrom_line (hne : fields ≠ []) (hkept : ∀ s ∈ fields, Kept code s) :
    readFrom .start [] record (separated ',' code fields ++ '\n' :: r) =
      (readFrom .start [] [] r).map ((record ++ fields) :: ·) := by
  induction fields generalizing record with
  | nil => exact absurd rfl hne
  | cons s fields ih =>
    rw [List.forall_mem_cons] at hkept
    cases fields with
    | nil =>
      rw [separated, hkept.1 (.inr rfl), readFrom_newline]
    | cons t fields =>
      rw [separated_cons_cons, hkept.1 (.inl rfl), readFrom_comma, ih (by simp) hkept.2,
        List.append_assoc]
      rfl

/-- If the first record comes back, so does each of its fields. -/
theorem kept_of_head {out : List (List (List Char))} (hne : fields ≠ [])
    (hfields : ∀ s ∈ fields, Kept code s ∨ Lost code s)
    (hread : readFrom .start [] record (separated ',' code fields ++ '\n' :: r) = some out)
    (hhead : out.head? = some (record ++ fields)) : ∀ s ∈ fields, Kept code s := by
  induction fields generalizing record with
  | nil => exact absurd rfl hne
  | cons s fields ih =>
    rw [List.forall_mem_cons] at hfields
    cases fields with
    | nil =>
      rcases hfields.1 with hkept | ⟨p, hp, hlost⟩
      · simpa using hkept
      · have hcut := (hlost (.inr rfl) hread).2
        rw [hhead] at hcut
        simp [Ne.symm hp] at hcut
    | cons t fields =>
      rw [separated_cons_cons] at hread
      rcases hfields.1 with hkept | ⟨p, hp, hlost⟩
      · rw [hkept (.inl rfl), readFrom_comma] at hread
        rw [List.forall_mem_cons]
        refine ⟨hkept, ih (by simp) hfields.2 hread ?_⟩
        rw [hhead, List.append_assoc]
        rfl
      · exact absurd (hlost (.inl rfl) hread).1 (by decide)

/-- A list of records comes back from its lines exactly if every field does. -/
theorem readFrom_lines_iff (hne : ∀ fields ∈ records, fields ≠ [])
    (hfields : ∀ fields ∈ records, ∀ s ∈ fields, Kept code s ∨ Lost code s) :
    readFrom .start [] [] (records.flatMap (line code)) = some records ↔
      ∀ fields ∈ records, ∀ s ∈ fields, Kept code s := by
  induction records with
  | nil => simp
  | cons fields records ih =>
    rw [List.forall_mem_cons] at hne hfields
    have hsplit : (fields :: records).flatMap (line code) =
        separated ',' code fields ++ '\n' :: records.flatMap (line code) := by
      rw [List.flatMap_cons, line, List.append_assoc]
      rfl
    rw [hsplit, List.forall_mem_cons]
    constructor
    · intro hread
      have hkept := kept_of_head hne.1 hfields.1 hread rfl
      rw [readFrom_line hne.1 hkept, Option.map_eq_some_iff] at hread
      obtain ⟨rest, hrest, heq⟩ := hread
      rw [(List.cons.inj heq).2] at hrest
      exact ⟨hkept, (ih hne.2 hfields.2).mp hrest⟩
    · intro hkept
      rw [readFrom_line hne.1 hkept.1, (ih hne.2 hfields.2).mpr hkept.2]
      rfl

end Lines

end Ppb.Csv
