import Ppb.Common.Json
import Ppb.Common.Legible

/-!
# The text of a JSON value

`Value::to_string` writes different values differently: a value can be read back from
the front of any text in which its own text stands there (`WellFormed.legible`), and so
`render` is injective (`render_injective`). A number is what needs the rest of the text:
it is over when no character of a number follows.

`WellFormed` says that the numbers are as `serde_json::Number` has them. A negative
number is negative, and the text of a float has a point or an exponent in it, so that it
is not the text of an integer.
-/

namespace Ppb

/-- A character that the text of a number is made of. -/
def isNumberChar (c : Char) : Bool := c.isDigit || c == '-' || c == '+' || c == '.' || c == 'e'

/-- The numbers of `serde_json::Number`. -/
def Number.WellFormed : Number → Prop
  | .posInt _ => True
  | .negInt i => i.toInt < 0
  | .float text => (∀ c ∈ text.toList, isNumberChar c = true) ∧
      ∃ c ∈ text.toList, c = '.' ∨ c = 'e'

namespace Json

/-- Every number in the value is one of `serde_json::Number`. -/
inductive WellFormed : Json → Prop
  | null : WellFormed .null
  | bool (b : Bool) : WellFormed (.bool b)
  | num {n : Number} (hn : n.WellFormed) : WellFormed (.num n)
  | str (s : String) : WellFormed (.str s)
  | arr {items : List Json} (h : ∀ v ∈ items, WellFormed v) : WellFormed (.arr items)
  | obj {fields : List (String × Json)} (h : ∀ f ∈ fields, WellFormed f.2) :
      WellFormed (.obj fields)

@[simp] theorem wellFormed_str (s : String) : (Json.str s).WellFormed := .str s

@[simp] theorem wellFormed_num {n : Number} : (Json.num n).WellFormed ↔ n.WellFormed :=
  ⟨fun h => by cases h with | num hn => exact hn, .num⟩

@[simp] theorem wellFormed_obj {fields : List (String × Json)} :
    (Json.obj fields).WellFormed ↔ ∀ f ∈ fields, f.2.WellFormed :=
  ⟨fun h => by cases h with | obj h => exact h, .obj⟩

theorem WellFormed.get? {v w : Json} {key : String} (hv : v.WellFormed)
    (h : v.get? key = some w) : w.WellFormed := by
  cases hv with
  | obj hfields =>
    rw [Json.get?, Fields.get?, Option.map_eq_some_iff] at h
    obtain ⟨f, hf, rfl⟩ := h
    exact hfields f (List.mem_of_find?_eq_some hf)
  | _ => cases h

/-! ## Numbers -/

/-- The integer that `posInt` and `negInt` write, if the number is one. -/
def intOf? : Number → Option ℤ
  | .posInt n => some n.toNat
  | .negInt i => some i.toInt
  | .float _ => none

theorem renderNumber_eq_repr {n : Number} {i : ℤ} (h : intOf? n = some i) :
    renderNumber n = Int.repr i := by
  cases n with
  | posInt n => rw [← Option.some.inj h]; rfl
  | negInt j => rw [← Option.some.inj h]; rfl
  | float text => cases h

theorem toList_repr_int (i : ℤ) :
    ∀ c ∈ (Int.repr i).toList, c.isDigit = true ∨ c = '-' := by
  intro c hc
  cases i with
  | ofNat n =>
    left
    rw [Int.repr, Nat.toList_repr] at hc
    exact Nat.isDigit_of_mem_toDigits (by decide) (by decide) hc
  | negSucc n =>
    rw [Int.repr, String.toList_append, List.mem_append, Nat.toList_repr] at hc
    rcases hc with hc | hc
    · right
      simpa using hc
    · left
      exact Nat.isDigit_of_mem_toDigits (by decide) (by decide) hc

theorem eq_of_intOf? {n m : Number} (hn : n.WellFormed) (hm : m.WellFormed) {i : ℤ}
    (hni : intOf? n = some i) (hmi : intOf? m = some i) : n = m := by
  have heq : intOf? n = intOf? m := hni.trans hmi.symm
  cases n with
  | posInt a =>
    cases m with
    | posInt b =>
      simp only [intOf?, Option.some.injEq, Nat.cast_inj] at heq
      rw [UInt64.toNat_inj.mp heq]
    | negInt b =>
      simp only [intOf?, Option.some.injEq, Number.WellFormed] at heq hm
      omega
    | float text => cases hmi
  | negInt a =>
    cases m with
    | posInt b =>
      simp only [intOf?, Option.some.injEq, Number.WellFormed] at heq hn
      omega
    | negInt b =>
      simp only [intOf?, Option.some.injEq] at heq
      rw [Int64.toInt_inj.mp heq]
    | float text => cases hmi
  | float text => cases hni

theorem isNumberChar_of_int {c : Char} (h : c.isDigit = true ∨ c = '-') :
    isNumberChar c = true := by
  rcases h with h | rfl
  · rw [isNumberChar, h]
    rfl
  · rfl

theorem isNumberChar_renderNumber {n : Number} (hn : n.WellFormed) :
    ∀ c ∈ (renderNumber n).toList, isNumberChar c = true := by
  intro c hc
  cases hi : intOf? n with
  | some i =>
    rw [renderNumber_eq_repr hi] at hc
    exact isNumberChar_of_int (toList_repr_int i c hc)
  | none =>
    cases n with
    | float text => exact hn.1 c hc
    | _ => cases hi

/-- The text of an integer is not the text of a float. -/
theorem renderNumber_ne_float {n : Number} {i : ℤ} (hi : intOf? n = some i) {text : String}
    (hf : (Number.float text).WellFormed) : renderNumber n ≠ text := by
  intro heq
  obtain ⟨c, hc, hdot⟩ := hf.2
  rw [← heq, renderNumber_eq_repr hi] at hc
  rcases toList_repr_int i c hc with hdigit | rfl
  · rcases hdot with rfl | rfl <;> exact absurd hdigit (by decide)
  · exact absurd hdot (by decide)

theorem renderNumber_injective {n m : Number} (hn : n.WellFormed) (hm : m.WellFormed)
    (h : renderNumber n = renderNumber m) : n = m := by
  cases hi : intOf? n with
  | some i =>
    cases hj : intOf? m with
    | some j =>
      rw [renderNumber_eq_repr hi, renderNumber_eq_repr hj] at h
      have hij : i = j := Int.repr_injective h
      rw [← hij] at hj
      exact eq_of_intOf? hn hm hi hj
    | none =>
      cases m with
      | float text => exact absurd h (renderNumber_ne_float hi hm)
      | _ => cases hj
  | none =>
    cases n with
    | float text =>
      cases hj : intOf? m with
      | some j => exact absurd h.symm (renderNumber_ne_float hj hn)
      | none =>
        cases m with
        | float text' => rw [show text = text' from h]
        | _ => cases hj
    | _ => cases hi

theorem renderNumber_ne_nil {n : Number} (hn : n.WellFormed) : (renderNumber n).toList ≠ [] := by
  cases n with
  | posInt n =>
    show (Nat.repr n.toNat).toList ≠ []
    rw [Nat.toList_repr]
    exact Nat.toDigits_ne_nil
  | negInt i =>
    rw [renderNumber_eq_repr rfl]
    cases i.toInt with
    | ofNat n =>
      show (Nat.repr n).toList ≠ []
      rw [Nat.toList_repr]
      exact Nat.toDigits_ne_nil
    | negSucc n =>
      rw [Int.repr, String.toList_append]
      simp
  | float text =>
    obtain ⟨c, hc, -⟩ := hn.2
    exact List.ne_nil_of_mem hc

/-! ## Strings -/

/-- The value of a hexadecimal digit. -/
def hexVal (c : Char) : ℕ := if c.toNat < 58 then c.toNat - 48 else c.toNat - 87

/-- The first character of a string whose text is given. -/
def unescape : List Char → Option (Char × List Char)
  | '\\' :: '"' :: r => some ('"', r)
  | '\\' :: '\\' :: r => some ('\\', r)
  | '\\' :: 'b' :: r => some (Char.ofNat 8, r)
  | '\\' :: 't' :: r => some (Char.ofNat 9, r)
  | '\\' :: 'n' :: r => some (Char.ofNat 10, r)
  | '\\' :: 'f' :: r => some (Char.ofNat 12, r)
  | '\\' :: 'r' :: r => some (Char.ofNat 13, r)
  | '\\' :: 'u' :: _ :: _ :: a :: b :: r => some (Char.ofNat (hexVal a * 16 + hexVal b), r)
  | c :: r => some (c, r)
  | [] => none

theorem hexVal_hexDigit {n : ℕ} (h : n < 16) : hexVal (Text.hexDigit n) = n := by
  revert n
  decide

theorem unescape_escapeChar (c : Char) (r : List Char) :
    unescape ((escapeChar c).toList ++ r) = some (c, r) := by
  have hval : ∀ {n}, c.toNat = n → some (Char.ofNat n, r) = some (c, r) := by
    intro n hn
    rw [← hn, Char.ofNat_toNat]
  unfold escapeChar
  split_ifs with hquote hback h8 h9 h10 h12 h13 h32
  · rw [hquote]; rfl
  · rw [hback]; rfl
  · exact hval h8
  · exact hval h9
  · exact hval h10
  · exact hval h12
  · exact hval h13
  · simp only [String.toList_append, String.toList_ofList]
    show some (Char.ofNat (hexVal (Text.hexDigit (c.toNat / 16)) * 16 +
      hexVal (Text.hexDigit (c.toNat % 16))), r) = _
    rw [hexVal_hexDigit (by omega), hexVal_hexDigit (by omega)]
    exact hval (by omega)
  · rw [String.toList_singleton]
    show unescape (c :: r) = _
    unfold unescape
    split <;> simp_all

/-- No character is written with a quote in front. -/
theorem unmarked_escapeChar (c : Char) : Unmarked '"' (escapeChar c).toList := by
  unfold escapeChar
  split_ifs with hquote hback h8 h9 h10 h12 h13 h32
  · exact ⟨'\\', _, rfl, by decide⟩
  · exact ⟨'\\', _, rfl, by decide⟩
  · exact ⟨'\\', _, rfl, by decide⟩
  · exact ⟨'\\', _, rfl, by decide⟩
  · exact ⟨'\\', _, rfl, by decide⟩
  · exact ⟨'\\', _, rfl, by decide⟩
  · exact ⟨'\\', _, rfl, by decide⟩
  · rw [String.toList_append]
    exact ⟨'\\', _, rfl, by decide⟩
  · rw [String.toList_singleton]
    exact ⟨c, [], rfl, hquote⟩

theorem toList_renderString (s : String) :
    (renderString s).toList =
      '"' :: (s.toList.flatMap (fun c => (escapeChar c).toList) ++ ['"']) := by
  rw [renderString, String.toList_append, String.toList_append, String.toList_join,
    List.flatMap_map]
  rfl

/-- A string is over at its closing quote, whatever follows. -/
theorem legible_renderString {stop : List Char → Prop} (s : String) :
    Legible (fun s => (renderString s).toList) (fun _ => True) stop s := by
  intro t r r' _ _ _ heq
  simp only [toList_renderString, List.cons_append, List.append_assoc, List.cons.injEq,
    true_and, List.nil_append] at heq
  have hword := legible_flatMap (legible_of_decode unescape unescape_escapeChar)
    unmarked_escapeChar s.toList trivial ⟨r, rfl⟩ ⟨r', rfl⟩ heq
  exact ⟨String.toList_inj.mp hword.1, (List.cons.inj hword.2).2⟩

/-! ## Values -/

/-- The text of a field. -/
def fieldText (f : String × Json) : List Char :=
  (renderString f.1).toList ++ ':' :: f.2.render.toList

theorem toList_renderItems (items : List Json) :
    (renderItems items).toList = separated ',' (fun v => v.render.toList) items := by
  induction items with
  | nil => rfl
  | cons v items ih =>
    cases items with
    | nil => rfl
    | cons w items =>
      rw [renderItems, String.toList_append, String.toList_append, ih, separated,
        List.append_assoc]
      · rfl
      · exact List.cons_ne_nil w items

theorem toList_renderFields (fields : List (String × Json)) :
    (renderFields fields).toList = separated ',' fieldText fields := by
  induction fields with
  | nil => rfl
  | cons f fields ih =>
    obtain ⟨k, v⟩ := f
    cases fields with
    | nil =>
      rw [renderFields, String.toList_append, String.toList_append, List.append_assoc]
      rfl
    | cons g fields =>
      rw [renderFields, String.toList_append, String.toList_append, String.toList_append,
        String.toList_append, ih, separated, fieldText]
      · simp only [List.append_assoc, List.cons_append]
        rfl
      · exact List.cons_ne_nil g fields

theorem toList_render_arr (items : List Json) :
    (render (.arr items)).toList =
      '[' :: (separated ',' (fun v => v.render.toList) items ++ [']']) := by
  rw [render, String.toList_append, String.toList_append, toList_renderItems]
  rfl

theorem toList_render_obj (fields : List (String × Json)) :
    (render (.obj fields)).toList = '\x7b' :: (separated ',' fieldText fields ++ ['\x7d']) := by
  rw [render, String.toList_append, String.toList_append, toList_renderFields]
  rfl

/-- The constructor of a value, by the character its text begins with. -/
def ctorOf (c : Char) : ℕ :=
  if c = 'n' then 0 else if c = 't' ∨ c = 'f' then 1 else if c = '"' then 3
  else if c = '[' then 4 else if c = '\x7b' then 5 else 2

theorem ctorOf_number {c : Char} (h : isNumberChar c = true) : ctorOf c = 2 := by
  unfold ctorOf
  split_ifs with hn hb hs ha ho
  · rw [hn] at h; exact absurd h (by decide)
  · rcases hb with hb | hb <;> rw [hb] at h <;> exact absurd h (by decide)
  · rw [hs] at h; exact absurd h (by decide)
  · rw [ha] at h; exact absurd h (by decide)
  · rw [ho] at h; exact absurd h (by decide)
  · rfl

theorem exists_render_eq_cons {v : Json} (hv : v.WellFormed) :
    ∃ c t, v.render.toList = c :: t ∧ ctorOf c = v.ctorIdx := by
  cases hv with
  | null => exact ⟨_, _, rfl, rfl⟩
  | bool b => cases b <;> exact ⟨_, _, rfl, rfl⟩
  | @num n hn =>
    obtain ⟨c, t, ht⟩ := List.exists_cons_of_ne_nil (renderNumber_ne_nil hn)
    have hc := isNumberChar_renderNumber hn c (by rw [ht]; exact List.mem_cons_self)
    exact ⟨c, t, ht, ctorOf_number hc⟩
  | str s => exact ⟨_, _, toList_renderString s, rfl⟩
  | arr h => exact ⟨_, _, toList_render_arr _, rfl⟩
  | obj h => exact ⟨_, _, toList_render_obj _, rfl⟩

theorem ctorIdx_eq {v w : Json} {r r' : List Char} (hv : v.WellFormed) (hw : w.WellFormed)
    (heq : v.render.toList ++ r = w.render.toList ++ r') : v.ctorIdx = w.ctorIdx := by
  obtain ⟨c, t, hc, hv⟩ := exists_render_eq_cons hv
  obtain ⟨d, u, hd, hw⟩ := exists_render_eq_cons hw
  rw [hc, hd] at heq
  rw [← hv, ← hw, (List.cons.inj heq).1]

theorem unmarked_render {mark : Char} (hmark : ctorOf mark = 2)
    (hnumber : isNumberChar mark = false) {v : Json} (hv : v.WellFormed) :
    Unmarked mark v.render.toList := by
  obtain ⟨c, t, hc, hctor⟩ := exists_render_eq_cons hv
  refine ⟨c, t, hc, fun heq => ?_⟩
  rw [← heq] at hmark hnumber
  rw [hmark] at hctor
  cases hv with
  | @num n hn =>
    have hmem : c ∈ (render (.num n)).toList := by
      rw [hc]
      exact List.mem_cons_self
    rw [isNumberChar_renderNumber hn c hmem] at hnumber
    cases hnumber
  | _ => cases hctor

theorem legible_fieldText {f : String × Json}
    (h : Legible (fun v => v.render.toList) WellFormed (EndsSpan isNumberChar) f.2) :
    Legible fieldText (fun g => g.2.WellFormed) (EndsSpan isNumberChar) f := by
  intro g r r' hg hr hr' heq
  simp only [fieldText, List.append_assoc, List.cons_append] at heq
  have hstring : Legible (fun s => (renderString s).toList) (fun _ => True) (fun _ => True) f.1 :=
    legible_renderString f.1
  obtain ⟨hkey, hrest⟩ := hstring trivial trivial trivial heq
  obtain ⟨hvalue, hr⟩ := h hg hr hr' (List.cons.inj hrest).2
  exact ⟨Prod.ext hkey hvalue, hr⟩

theorem endsSpan_cons {c : Char} (h : isNumberChar c = false) (r : List Char) :
    EndsSpan isNumberChar (c :: r) := by
  intro d hd
  rw [← Option.some.inj hd]
  exact h

/-- A value can be read where its text stands. -/
theorem WellFormed.legible {v : Json} (hv : v.WellFormed) :
    Legible (fun v => v.render.toList) WellFormed (EndsSpan isNumberChar) v := by
  induction hv with
  | null =>
    intro w r r' hw _ _ heq
    have hctor := ctorIdx_eq .null hw heq
    cases w with
    | null => exact ⟨rfl, List.append_cancel_left heq⟩
    | _ => cases hctor
  | bool b =>
    intro w r r' hw _ _ heq
    have hctor := ctorIdx_eq (.bool b) hw heq
    cases w with
    | bool b' =>
      have hb : b = b' := by
        cases b <;> cases b' <;> first | rfl | exact absurd (List.cons.inj heq).1 (by decide)
      subst hb
      exact ⟨rfl, List.append_cancel_left heq⟩
    | _ => cases hctor
  | @num n hn =>
    intro w r r' hw hr hr' heq
    have hctor := ctorIdx_eq (.num hn) hw heq
    cases hw with
    | num hm =>
      obtain ⟨rfl, hrest⟩ := legible_of_span (fun _ => isNumberChar_renderNumber)
        (fun _ _ hn hm h => renderNumber_injective hn hm (String.toList_inj.mp h)) hn hm hr hr' heq
      exact ⟨rfl, hrest⟩
    | _ => cases hctor
  | str s =>
    intro w r r' hw hr hr' heq
    have hctor := ctorIdx_eq (.str s) hw heq
    cases w with
    | str t =>
      obtain ⟨rfl, hrest⟩ := legible_renderString s trivial hr hr' heq
      exact ⟨rfl, hrest⟩
    | _ => cases hctor
  | @arr items hitems ih =>
    intro w r r' hw hr hr' heq
    have hctor := ctorIdx_eq (.arr hitems) hw heq
    cases hw with
    | @arr others hothers =>
      simp only [toList_render_arr, List.cons_append, List.append_assoc, List.nil_append] at heq
      obtain ⟨rfl, hrest⟩ := legible_separated (by decide) (endsSpan_cons (by decide))
        (endsSpan_cons (by decide)) (fun v => unmarked_render (by decide) (by decide))
        (fun v hmem => ⟨hitems v hmem, ih v hmem⟩) hothers ⟨r, rfl⟩ ⟨r', rfl⟩ (List.cons.inj heq).2
      exact ⟨rfl, (List.cons.inj hrest).2⟩
    | _ => cases hctor
  | @obj fields hfields ih =>
    intro w r r' hw hr hr' heq
    have hctor := ctorIdx_eq (.obj hfields) hw heq
    have hunmarked : ∀ f : String × Json, f.2.WellFormed → Unmarked '\x7d' (fieldText f) := by
      intro f _
      rw [fieldText, toList_renderString]
      exact ⟨'"', _, rfl, by decide⟩
    cases hw with
    | @obj others hothers =>
      simp only [toList_render_obj, List.cons_append, List.append_assoc, List.nil_append] at heq
      obtain ⟨rfl, hrest⟩ := legible_separated (by decide) (endsSpan_cons (by decide))
        (endsSpan_cons (by decide)) hunmarked
        (fun f hmem => ⟨hfields f hmem, legible_fieldText (ih f hmem)⟩) hothers ⟨r, rfl⟩ ⟨r', rfl⟩
        (List.cons.inj heq).2
      exact ⟨rfl, (List.cons.inj hrest).2⟩
    | _ => cases hctor

/-- Different values have different texts. -/
theorem render_injective {v w : Json} (hv : v.WellFormed) (hw : w.WellFormed)
    (h : v.render = w.render) : v = w :=
  hv.legible.eq (fun c hc => by cases hc) hw (congrArg String.toList h)

end Json

end Ppb
