import Ppb.Common.JsonReader
import Ppb.Common.Replace

/-!
# Escaping for the login page (`auth/gateway.rs`)

The page of the login gateway is a text with values put into it: into the HTML, where
`html_escape` writes the five characters of HTML as entities, and as JSON into a script, where
`json_for_inline_script` writes what could end the script as `\u` and a code.

Both are chains of `str::replace` in which no replacement brings in what a later one replaces, so
each is one pass over the text (`toList_htmlEscape`, `toList_jsonForInlineScript`).
-/

namespace Ppb.Gateway

open Text

/-! ## The code -/

/-- `html_escape` (auth/gateway.rs:353-359). -/
def htmlEscape (s : String) : String :=
  replaceAll (replaceAll (replaceAll (replaceAll (replaceAll s "&" "&amp;") "<" "&lt;") ">" "&gt;")
    "\"" "&quot;") "'" "&#39;"

/-- `json_for_inline_script` (auth/gateway.rs:343-351), for the text that `serde_json` has made of
    the value. -/
def jsonForInlineScript (json : String) : String :=
  replaceAll (replaceAll (replaceAll (replaceAll (replaceAll json "&" "\\u0026") "<" "\\u003c") ">"
    "\\u003e") "\u2028" "\\u2028") "\u2029" "\\u2029"

/-! ## HTML -/

/-- The five entities. -/
def entities : List (Char × String) :=
  [('&', "&amp;"), ('<', "&lt;"), ('>', "&gt;"), ('"', "&quot;"), ('\'', "&#39;")]

/-- A reader of HTML text that knows the five entities; `skip` characters belong to the last. -/
def decodeFrom : ℕ → List Char → List Char
  | _, [] => []
  | skip + 1, _ :: s => decodeFrom skip s
  | 0, c :: s =>
    match entities.find? fun e => e.2.toList.isPrefixOf (c :: s) with
    | some e => e.1 :: decodeFrom (e.2.toList.length - 1) s
    | none => c :: decodeFrom 0 s

def decode (s : String) : String := String.ofList (decodeFrom 0 s.toList)

theorem toList_htmlEscape (s : String) :
    (htmlEscape s).toList = s.toList.flatMap (charText entities) := by
  show (replaceChars entities s).toList = _
  rw [toList_replaceChars (by decide)]

/-- Either an entity, or a character that is none of the five. -/
theorem charText_entities (c : Char) :
    (∃ e ∈ entities, e.1 = c ∧ charText entities c = e.2.toList) ∨
      (∀ e ∈ entities, e.1 ≠ c) ∧ charText entities c = [c] := by
  by_cases hc : ∃ e ∈ entities, e.1 = c
  · obtain ⟨e, he, rfl⟩ := hc
    refine .inl ⟨e, he, rfl, ?_⟩
    revert e
    decide
  · have hne : ∀ e ∈ entities, e.1 ≠ c := fun e he heq => hc ⟨e, he, heq⟩
    exact .inr ⟨hne, charText_of_not_mem hne⟩

/-- Of the five characters, an entity has a `&` at its front and nothing else. -/
theorem entity_shape : ∀ e ∈ entities, e.2.toList = '&' :: e.2.toList.tail ∧
    ∀ e' ∈ entities, e'.1 ∉ e.2.toList.tail := by decide

/-- An entity is recognised in front of any text. -/
theorem find_entity {e : Char × String} (he : e ∈ entities) (r : List Char) :
    entities.find? (fun e' => e'.2.toList.isPrefixOf (e.2.toList ++ r)) = some e := by
  simp only [entities, List.mem_cons, List.not_mem_nil, or_false] at he
  rcases he with rfl | rfl | rfl | rfl | rfl
  all_goals rfl

theorem decodeFrom_skip (k : ℕ) (s : List Char) : decodeFrom k s = decodeFrom 0 (s.drop k) := by
  induction s generalizing k with
  | nil => simp [decodeFrom]
  | cons c s ih =>
    match k with
    | 0 => rfl
    | k + 1 =>
      rw [decodeFrom, List.drop_succ_cons]
      exact ih k

theorem decodeFrom_charText (c : Char) (r : List Char) :
    decodeFrom 0 (charText entities c ++ r) = c :: decodeFrom 0 r := by
  rcases charText_entities c with ⟨e, he, rfl, htext⟩ | ⟨hne, htext⟩
  · have hshape := (entity_shape e he).1
    rw [htext, hshape, List.cons_append, decodeFrom, ← List.cons_append, ← hshape,
      find_entity he]
    show e.1 :: decodeFrom (e.2.toList.length - 1) (e.2.toList.tail ++ r) = _
    rw [decodeFrom_skip, ← List.length_tail, List.drop_left]
  · have hnone : entities.find? (fun e => e.2.toList.isPrefixOf (c :: r)) = none := by
      rw [List.find?_eq_none]
      intro e he hprefix
      rw [(entity_shape e he).1, List.isPrefixOf_cons_cons, Bool.and_eq_true, beq_iff_eq] at hprefix
      exact hne ('&', "&amp;") List.mem_cons_self hprefix.1
    rw [htext, List.singleton_append, decodeFrom, hnone]

theorem decode_htmlEscape (s : String) : decode (htmlEscape s) = s := by
  have hchars (l : List Char) : decodeFrom 0 (l.flatMap (charText entities)) = l := by
    induction l with
    | nil => rfl
    | cons c l ih => rw [List.flatMap_cons, decodeFrom_charText, ih]
  rw [decode, toList_htmlEscape, hchars, String.ofList_toList]

/-- The characters `& < > " '` in an escaped text are those that the entities start with. -/
theorem special_mem_charText {c d : Char} (hd : ∃ e ∈ entities, e.1 = d)
    (h : d ∈ charText entities c) : d = '&' := by
  obtain ⟨e, he, rfl⟩ := hd
  rcases charText_entities c with ⟨e', he', -, htext⟩ | ⟨hne, htext⟩
  · rw [htext, (entity_shape e' he').1] at h
    rcases List.mem_cons.mp h with heq | htail
    · exact heq
    · exact absurd htail ((entity_shape e' he').2 e he)
  · rw [htext, List.mem_singleton] at h
    exact absurd h (hne e he)

theorem special_mem_htmlEscape {s : String} {d : Char} (hd : ∃ e ∈ entities, e.1 = d)
    (h : d ∈ (htmlEscape s).toList) : d = '&' := by
  rw [toList_htmlEscape] at h
  obtain ⟨c, -, hc⟩ := List.mem_flatMap.mp h
  exact special_mem_charText hd hc

/-- Every `&` starts an entity. -/
theorem amp_starts_entity {l p q : List Char} (h : l.flatMap (charText entities) = p ++ '&' :: q) :
    ∃ e ∈ entities, e.2.toList <+: '&' :: q := by
  induction l generalizing p with
  | nil => simp at h
  | cons c l ih =>
    rw [List.flatMap_cons] at h
    rcases List.append_eq_append_iff.mp h with ⟨p', hp, hrest⟩ | ⟨b, htext, hrest⟩
    · exact ih hrest
    · cases b with
      | nil =>
        rw [List.nil_append] at hrest
        exact ih (p := []) hrest.symm
      | cons d b =>
        obtain ⟨rfl, rfl⟩ := List.cons_eq_cons.mp hrest
        -- the `&` lies in what stands for `c`, so that is an entity and the `&` its front
        rcases charText_entities c with ⟨e, he, -, hentity⟩ | ⟨hne, hself⟩
        · have hsplit := htext
          rw [hentity, (entity_shape e he).1] at hsplit
          cases p with
          | nil =>
            rw [List.nil_append] at htext
            exact ⟨e, he, by rw [← hentity, htext]; exact List.prefix_append (_ :: b) _⟩
          | cons x p =>
            have hmem : '&' ∈ e.2.toList.tail := by
              rw [(List.cons_eq_cons.mp hsplit).2]
              simp
            exact absurd hmem ((entity_shape e he).2 ('&', "&amp;") List.mem_cons_self)
        · have hmem : '&' ∈ charText entities c := by rw [htext]; simp
          rw [hself, List.mem_singleton] at hmem
          exact absurd hmem (hne ('&', "&amp;") List.mem_cons_self)

/-! ## Scripts -/

/-- The characters that could end a script or a line of it. -/
def isScriptChar (c : Char) : Bool :=
  c == '&' || c == '<' || c == '>' || c == '\u2028' || c == '\u2029'

/-- The replacements of `json_for_inline_script`. -/
def scriptEscapes : List (Char × String) :=
  [('&', "\\u0026"), ('<', "\\u003c"), ('>', "\\u003e"), ('\u2028', "\\u2028"),
    ('\u2029', "\\u2029")]

theorem charText_scriptEscapes (c : Char) :
    charText scriptEscapes c = if isScriptChar c = true then JsonReader.escaped c else [c] := by
  by_cases hc : ∃ e ∈ scriptEscapes, e.1 = c
  · obtain ⟨e, he, rfl⟩ := hc
    revert e
    decide
  · have hne : ∀ e ∈ scriptEscapes, e.1 ≠ c := fun e he heq => hc ⟨e, he, heq⟩
    have hc : isScriptChar c = false := by
      have h := fun e he => (hne e he).symm
      simp only [scriptEscapes, List.forall_mem_cons] at h
      simp only [isScriptChar, Bool.or_eq_false_iff, beq_eq_false_iff_ne]
      exact ⟨⟨⟨⟨h.1, h.2.1⟩, h.2.2.1⟩, h.2.2.2.1⟩, h.2.2.2.2.1⟩
    rw [charText_of_not_mem hne, hc]
    rfl

theorem toList_jsonForInlineScript (json : String) : (jsonForInlineScript json).toList =
    json.toList.flatMap fun c => if isScriptChar c = true then JsonReader.escaped c else [c] := by
  show (replaceChars scriptEscapes json).toList = _
  rw [toList_replaceChars (by decide)]
  congr 1
  funext c
  exact charText_scriptEscapes c

theorem inner_of_isScriptChar {c : Char} (hc : isScriptChar c = true) : JsonReader.Inner c := by
  simp only [isScriptChar, Bool.or_eq_true, beq_iff_eq] at hc
  rcases hc with (((rfl | rfl) | rfl) | rfl) | rfl
  all_goals constructor <;> decide

theorem not_isScriptChar_escaped {c d : Char} (h : d ∈ JsonReader.escaped c) :
    isScriptChar d = false := by
  have hdigit : ∀ n < 16, isScriptChar (hexDigit n) = false := by decide
  have hmod (n : ℕ) : isScriptChar (hexDigit (n % 16)) = false :=
    hdigit _ (Nat.mod_lt _ (by omega))
  simp only [JsonReader.escaped, List.mem_cons, List.not_mem_nil, or_false] at h
  rcases h with rfl | rfl | rfl | rfl | rfl | rfl
  · decide
  · decide
  all_goals exact hmod _

/-- What is written for a character has none that could end the script. -/
theorem not_isScriptChar_of_mem {json : String} {d : Char}
    (h : d ∈ (jsonForInlineScript json).toList) : isScriptChar d = false := by
  rw [toList_jsonForInlineScript] at h
  obtain ⟨c, -, hd⟩ := List.mem_flatMap.mp h
  by_cases hc : isScriptChar c = true
  · rw [if_pos hc] at hd
    exact not_isScriptChar_escaped hd
  · rw [if_neg hc, List.mem_singleton] at hd
    rw [hd]
    exact Bool.eq_false_iff.mpr hc

theorem parse_jsonForInlineScript {number : List Char → Option Number} {json : String} {v : Json}
    (h : JsonReader.parse number json = some v) :
    JsonReader.parse number (jsonForInlineScript json) = some v := by
  rw [← String.ofList_toList (s := jsonForInlineScript json), toList_jsonForInlineScript]
  exact JsonReader.parse_flatMap (fun _ => inner_of_isScriptChar) h

/-! ## Both -/

/-- Escaping for the page is safe, and loses nothing. -/
theorem escaping_safe_and_lossless (s : String) :
    ((∀ d ∈ (htmlEscape s).toList, d ≠ '<' ∧ d ≠ '>' ∧ d ≠ '"' ∧ d ≠ '\'') ∧
      (∀ p q, (htmlEscape s).toList = p ++ '&' :: q →
        ∃ e ∈ entities, e.2.toList <+: '&' :: q) ∧
      decode (htmlEscape s) = s) ∧
    ∀ json : String,
      (∀ d ∈ (jsonForInlineScript json).toList,
        d ≠ '<' ∧ d ≠ '>' ∧ d ≠ '&' ∧ d ≠ '\u2028' ∧ d ≠ '\u2029') ∧
      ∀ (number : List Char → Option Number) (v : Json), JsonReader.parse number json = some v →
        JsonReader.parse number (jsonForInlineScript json) = some v := by
  refine ⟨⟨fun d hd => ?_, fun p q h => ?_, decode_htmlEscape s⟩,
    fun json => ⟨fun d hd => ?_, fun _ _ => parse_jsonForInlineScript⟩⟩
  · have hspecial (e : Char × String) (he : e ∈ entities) (hne : e.1 ≠ '&') : d ≠ e.1 := by
      rintro rfl
      exact hne (special_mem_htmlEscape ⟨e, he, rfl⟩ hd)
    exact ⟨hspecial ('<', "&lt;") (by decide) (by decide),
      hspecial ('>', "&gt;") (by decide) (by decide),
      hspecial ('"', "&quot;") (by decide) (by decide),
      hspecial ('\'', "&#39;") (by decide) (by decide)⟩
  · rw [toList_htmlEscape] at h
    exact amp_starts_entity h
  · have hplain := not_isScriptChar_of_mem hd
    simp only [isScriptChar, Bool.or_eq_false_iff, beq_eq_false_iff_ne] at hplain
    obtain ⟨⟨⟨⟨hamp, hlt⟩, hgt⟩, hline⟩, hparagraph⟩ := hplain
    exact ⟨hlt, hgt, hamp, hline, hparagraph⟩

/-- A text with a tag in a string, and the page's text for it. -/
theorem escaping_safe_and_lossless_tag :
    JsonReader.parse (fun _ => none) "[\"</script>\",null]" =
        some (.arr [.str "</script>", .null]) ∧
      JsonReader.parse (fun _ => none) (jsonForInlineScript "[\"</script>\",null]") =
        some (.arr [.str "</script>", .null]) :=
  have hparse : JsonReader.parse (fun _ => none) "[\"</script>\",null]" =
      some (.arr [.str "</script>", .null]) := by decide +kernel
  ⟨hparse, ((escaping_safe_and_lossless "").2 _).2 _ _ hparse⟩

end Ppb.Gateway
