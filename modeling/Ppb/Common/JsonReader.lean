import Ppb.Common.Json

/-!
# Reading JSON texts (RFC 8259)

A reader in two steps: `lex` cuts a text into tokens, and `value` reads a value from the front of
a list of tokens. What a number is worth is left to `number`, so that the results hold for every
reader of numbers; of two members of an object with one name the last counts.

* `run_escaped`: a character of a string may be written as `\u` with its code.
* `parse_flatMap`: characters that stand only in strings may be written so all over a text.
-/

namespace Ppb.JsonReader

/-- A number or a literal is a word here. -/
inductive Token where
  | lbrace | rbrace | lbracket | rbracket | colon | comma
  | str (s : List Char)
  | word (w : List Char)
  deriving DecidableEq, Repr

/-! ## Tokens -/

/-- Where the lexer stands, with the characters of the token so far. -/
inductive State where
  | out
  | word (w : List Char)
  | str (s : List Char)
  | escape (s : List Char)
  /-- in the four digits behind `\u`, perhaps behind the first half of a pair -/
  | hex (s : List Char) (high : Option ℕ) (digits : List ℕ)
  /-- behind the first half of a pair -/
  | low (s : List Char) (high : ℕ)
  | lowEscape (s : List Char) (high : ℕ)
  deriving DecidableEq, Repr

def isWordChar (c : Char) : Bool :=
  c.isAlphanum || c == '-' || c == '+' || c == '.'

def isSpace (c : Char) : Bool := c == ' ' || c == '\t' || c == '\n' || c == '\r'

/-- The token that a character is. -/
def mark (c : Char) : Option Token :=
  if c = '\x7b' then some .lbrace
  else if c = '\x7d' then some .rbrace
  else if c = '[' then some .lbracket
  else if c = ']' then some .rbracket
  else if c = ':' then some .colon
  else if c = ',' then some .comma
  else none

/-- The character behind a backslash. -/
def unescape (c : Char) : Option Char :=
  if c = '"' ∨ c = '\\' ∨ c = '/' then some c
  else if c = 'b' then some (Char.ofNat 8)
  else if c = 'f' then some (Char.ofNat 12)
  else if c = 'n' then some '\n'
  else if c = 'r' then some '\r'
  else if c = 't' then some '\t'
  else none

def hexValue (c : Char) : Option ℕ :=
  if '0' ≤ c ∧ c ≤ '9' then some (c.toNat - 48)
  else if 'a' ≤ c ∧ c ≤ 'f' then some (c.toNat - 87)
  else if 'A' ≤ c ∧ c ≤ 'F' then some (c.toNat - 55)
  else none

/-- Behind the four digits `n`. -/
def closeHex (s : List Char) (n : ℕ) : Option ℕ → Option State
  | none =>
    if 0xD800 ≤ n ∧ n < 0xDC00 then some (.low s n)
    else if 0xDC00 ≤ n ∧ n < 0xE000 then none
    else some (.str (s ++ [Char.ofNat n]))
  | some high =>
    if 0xDC00 ≤ n ∧ n < 0xE000 then
      some (.str (s ++ [Char.ofNat (0x10000 + (high - 0xD800) * 0x400 + (n - 0xDC00))]))
    else none

/-- A character outside a token. -/
def stepOut (c : Char) : Option (List Token × State) :=
  if isSpace c = true then some ([], .out)
  else if c = '"' then some ([], .str [])
  else if isWordChar c = true then some ([], .word [c])
  else (mark c).map fun t => ([t], .out)

/-- The tokens that a character ends, and where the lexer stands behind it. -/
def step (st : State) (c : Char) : Option (List Token × State) :=
  match st with
  | .out => stepOut c
  | .word w =>
    if isWordChar c = true then some ([], .word (w ++ [c]))
    else (stepOut c).map fun r => (.word w :: r.1, r.2)
  | .str s =>
    if c = '"' then some ([.str s], .out)
    else if c = '\\' then some ([], .escape s)
    else if c.toNat < 32 then none
    else some ([], .str (s ++ [c]))
  | .escape s =>
    if c = 'u' then some ([], .hex s none [])
    else (unescape c).map fun d => ([], .str (s ++ [d]))
  | .hex s high digits =>
    (hexValue c).bind fun d =>
      match digits with
      | [a, b, e] => (closeHex s (((a * 16 + b) * 16 + e) * 16 + d) high).map fun st => ([], st)
      | _ => some ([], .hex s high (digits ++ [d]))
  | .low s high => if c = '\\' then some ([], .lowEscape s high) else none
  | .lowEscape s high => if c = 'u' then some ([], .hex s (some high) []) else none

/-- The tokens of the rest of a text. -/
def run : State → List Char → Option (List Token)
  | .out, [] => some []
  | .word w, [] => some [.word w]
  | _, [] => none
  | st, c :: t => (step st c).bind fun r => (run r.2 t).map (r.1 ++ ·)

def lex (text : String) : Option (List Token) := run .out text.toList

/-! ## Values -/

section Values

variable (number : List Char → Option Number)

def wordValue (w : List Char) : Option Json :=
  if w = "true".toList then some (.bool true)
  else if w = "false".toList then some (.bool false)
  else if w = "null".toList then some .null
  else (number w).map .num

mutual

/-- A value at the front of the tokens, and the rest. -/
def value : ℕ → List Token → Option (Json × List Token)
  | 0, _ => none
  | n + 1, toks =>
    match toks with
    | .word w :: r => (wordValue number w).map (·, r)
    | .str s :: r => some (.str (String.ofList s), r)
    | .lbracket :: .rbracket :: r => some (.arr [], r)
    | .lbracket :: r => (items n r).map fun x => (.arr x.1, x.2)
    | .lbrace :: .rbrace :: r => some (.obj [], r)
    | .lbrace :: r => (members n r).map fun x =>
        (.obj (x.1.foldl (fun fields f => Fields.insert f.1 f.2 fields) []), x.2)
    | _ => none

/-- The items of an array up to its end. -/
def items : ℕ → List Token → Option (List Json × List Token)
  | 0, _ => none
  | n + 1, toks =>
    match value n toks with
    | some (v, .rbracket :: r) => some ([v], r)
    | some (v, .comma :: r) => (items n r).map fun x => (v :: x.1, x.2)
    | _ => none

/-- The members of an object up to its end. -/
def members : ℕ → List Token → Option (List (String × Json) × List Token)
  | 0, _ => none
  | n + 1, toks =>
    match toks with
    | .str key :: .colon :: r =>
      match value n r with
      | some (v, .rbrace :: r) => some ([(String.ofList key, v)], r)
      | some (v, .comma :: r) => (members n r).map fun x => ((String.ofList key, v) :: x.1, x.2)
      | _ => none
    | _ => none

end

/-- The value of a text. Two steps inside a value use up a token. -/
def parse (text : String) : Option Json :=
  (lex text).bind fun toks =>
    match value number (2 * toks.length + 2) toks with
    | some (v, []) => some v
    | _ => none

end Values

/-! ## Characters that may be escaped -/

/-- `\\u` and the code of the character. -/
def escaped (c : Char) : List Char :=
  ['\\', 'u', Text.hexDigit (c.toNat / 4096 % 16), Text.hexDigit (c.toNat / 256 % 16),
    Text.hexDigit (c.toNat / 16 % 16), Text.hexDigit (c.toNat % 16)]

/-- A character that stands for itself in a string and is an error elsewhere. -/
structure Inner (c : Char) : Prop where
  space : isSpace c = false
  quote : c ≠ '"'
  word : isWordChar c = false
  mark : mark c = none
  backslash : c ≠ '\\'
  unescape : unescape c = none
  hex : hexValue c = none
  control : 32 ≤ c.toNat
  plane : c.toNat < 0x10000

variable {c : Char} {s t : List Char} {st : State} {toks : List Token}

theorem hexValue_hexDigit : ∀ n < 16, hexValue (Text.hexDigit n) = some n := by decide

theorem toNat_not_surrogate (c : Char) : c.toNat < 0xD800 ∨ 0xE000 ≤ c.toNat := by
  have hvalid := c.valid
  rcases hvalid with h | h
  · exact .inl h
  · right
    have : 0xDFFF < c.toNat := h.1
    omega

theorem run_cons (st : State) (c : Char) (t : List Char) :
    run st (c :: t) = (step st c).bind fun r => (run r.2 t).map (r.1 ++ ·) := by
  cases st <;> rfl

/-- Inside a string, a character may be written as itself or with its code. -/
theorem run_escaped (hc : c.toNat < 0x10000) (t : List Char) :
    run (.str s) (escaped c ++ t) = run (.str (s ++ [c])) t := by
  have hcode : (((c.toNat / 4096 % 16) * 16 + c.toNat / 256 % 16) * 16 + c.toNat / 16 % 16) * 16 +
      c.toNat % 16 = c.toNat := by omega
  have hclose : closeHex s c.toNat none = some (.str (s ++ [c])) := by
    have hsurrogate := toNat_not_surrogate c
    rw [closeHex, if_neg (by omega), if_neg (by omega), Char.ofNat_toNat]
  have hdigit (n : ℕ) : hexValue (Text.hexDigit (n % 16)) = some (n % 16) :=
    hexValue_hexDigit _ (Nat.mod_lt _ (by omega))
  simp [escaped, run, step, hdigit, hcode, hclose, Function.comp_def]

/-- Only in a string is the character no error. -/
theorem step_inner (hc : Inner c) (h : step st c ≠ none) :
    ∃ s, st = .str s ∧ step st c = some ([], .str (s ++ [c])) := by
  have hout : stepOut c = none := by
    simp [stepOut, hc.space, hc.quote, hc.word, hc.mark]
  have hu : c ≠ 'u' := by
    rintro rfl
    exact absurd hc.word (by decide)
  cases st with
  | str s =>
    refine ⟨s, rfl, ?_⟩
    have hcontrol : ¬ c.toNat < 32 := by have := hc.control; omega
    simp [step, hc.quote, hc.backslash, hcontrol]
  | out => exact absurd hout h
  | word w => simp [step, hc.word, hout] at h
  | escape s => simp [step, hu, hc.unescape] at h
  | hex s high digits => simp [step, hc.hex] at h
  | low s high => simp [step, hc.backslash] at h
  | lowEscape s high => simp [step, hu] at h

variable {p : Char → Bool}

/-- The tokens of a text stay the same when such characters are escaped all over it. -/
theorem run_flatMap (hp : ∀ c, p c = true → Inner c) (h : run st t = some toks) :
    run st (t.flatMap fun c => if p c = true then escaped c else [c]) = some toks := by
  induction t generalizing st toks with
  | nil => exact h
  | cons c t ih =>
    rw [List.flatMap_cons]
    rw [run_cons] at h
    obtain ⟨r, hr, htail⟩ := Option.bind_eq_some_iff.mp h
    obtain ⟨rest, hrest, rfl⟩ := Option.map_eq_some_iff.mp htail
    by_cases hc : p c = true
    · rw [if_pos hc]
      obtain ⟨s, rfl, hstep⟩ := step_inner (hp c hc) (by rw [hr]; simp)
      rw [hr] at hstep
      obtain rfl := Option.some.inj hstep
      rw [run_escaped (hp c hc).plane]
      exact ih hrest
    · rw [if_neg hc, List.singleton_append, run_cons, hr, Option.bind_some, ih hrest]
      rfl

/-- The value of a text stays the same. -/
theorem parse_flatMap {number : List Char → Option Number} {text : String} {v : Json}
    (hp : ∀ c, p c = true → Inner c) (h : parse number text = some v) :
    parse number
      (String.ofList (text.toList.flatMap fun c => if p c = true then escaped c else [c])) =
        some v := by
  obtain ⟨toks, htoks, hv⟩ := Option.bind_eq_some_iff.mp h
  rw [parse, lex, String.toList_ofList, run_flatMap hp htoks]
  exact hv

end Ppb.JsonReader
