import Ppb.Pages.Endpoints

/-!
# Offsets of pages

The offset of a page is a product of two numbers that a client chooses. As long as the product
fits into 64 bits, every way of computing the page gives the same slice of the list; beyond that
it wraps around, and the slice of `paginate` may be out of range.

* `limitOffset_eq`, `skip_take_eq`, `paginate_eq`: the page, if the offset fits.
* `offsets_safe_iff`: the offset is the mathematical one just if it fits.
-/

namespace Ppb.Pages

variable {α β : Type} {page size pageNum : Int64}

/-! ## The offset -/

/-- The number of pages before the page. -/
def pagesBefore (page : Int64) : ℤ := max page.toInt 1 - 1

/-- The offset of the page is a 64-bit number. -/
def Fits (page size : Int64) : Prop := pagesBefore page * size.toInt < 2 ^ 63

instance (page size : Int64) : Decidable (Fits page size) := inferInstanceAs (Decidable (_ < _))

theorem pagesBefore_nonneg (page : Int64) : 0 ≤ pagesBefore page := by
  rw [pagesBefore]
  omega

theorem toInt_pred (page : Int64) : (max page 1 - 1).toInt = pagesBefore page := by
  have hone : (1 : Int64).toInt = 1 := rfl
  have hlt := Int64.toInt_lt page
  rw [Int64.toInt_sub, I64.toInt_max, hone, pagesBefore]
  exact Int.bmod_eq_of_le (by omega) (by omega)

/-- The product is the mathematical one just if it fits. -/
theorem toInt_offsetOf_iff (hsize : 0 ≤ size.toInt) :
    (offsetOf (max page 1) size).toInt = pagesBefore page * size.toInt ↔ Fits page size := by
  have hnonneg : 0 ≤ pagesBefore page * size.toInt := Int.mul_nonneg (pagesBefore_nonneg page) hsize
  have hiff := I64.toInt_mul_iff (a := max page 1 - 1) (b := size)
  rw [toInt_pred] at hiff
  rw [offsetOf, hiff, Fits]
  omega

theorem toInt_offsetOf (hsize : 0 ≤ size.toInt) (hfits : Fits page size) :
    (offsetOf (max page 1) size).toInt =
      (((pagesBefore page).toNat * size.toInt.toNat : ℕ) : ℤ) := by
  rw [(toInt_offsetOf_iff hsize).mpr hfits, Int.natCast_mul,
    Int.toNat_of_nonneg (pagesBefore_nonneg page), Int.toNat_of_nonneg hsize]

/-! ## The pages -/

/-- The page of a list, for the numbers of a request. -/
def pageOf (l : List α) (page size : Int64) : List α :=
  slice l size.toInt.toNat (pagesBefore page).toNat

theorem pageOf_eq_nil {l : List α} (hsize : 0 ≤ size.toInt)
    (h : (l.length : ℤ) ≤ pagesBefore page * size.toInt) : pageOf l page size = [] := by
  refine slice_eq_nil ?_
  have hcast : (((pagesBefore page).toNat * size.toInt.toNat : ℕ) : ℤ) =
      pagesBefore page * size.toInt := by
    rw [Int.natCast_mul, Int.toNat_of_nonneg (pagesBefore_nonneg page), Int.toNat_of_nonneg hsize]
  omega

theorem limitOffset_eq (rows : List α) (hsize : 0 ≤ size.toInt) (hfits : Fits page size) :
    limitOffset rows size (offsetOf (max page 1) size) = .ok (pageOf rows page size) := by
  have hoffset := toInt_offsetOf hsize hfits
  have hpos : ¬ (offsetOf (max page 1) size < 0 ∨ size < 0) := by
    rw [Int64.lt_iff_toInt_lt, Int64.lt_iff_toInt_lt, hoffset, Int64.toInt_zero]
    omega
  rw [limitOffset, if_neg hpos, hoffset, Int.toNat_natCast]
  rfl

theorem asUsize_eq {v : Int64} {n : ℕ} (h : v.toInt = n) : asUsize v = n := by
  have hnat := I64.toNat_toUInt64 (show 0 ≤ v.toInt by omega)
  rw [asUsize]
  omega

theorem skip_take_eq (l : List α) (hsize : 0 ≤ size.toInt) (hfits : Fits page size) :
    (l.drop (asUsize (offsetOf (max page 1) size))).take (asUsize size) = pageOf l page size := by
  rw [asUsize_eq (toInt_offsetOf hsize hfits), asUsize_eq (Int.toNat_of_nonneg hsize).symm]
  rfl

theorem toInt_clampSize (pageNum : Int64) :
    (clampSize pageNum).toInt = min (max pageNum.toInt 1) 100 := by
  rw [clampSize, I64.toInt_min, I64.toInt_max]
  rfl

theorem clampSize_mem (pageNum : Int64) :
    1 ≤ (clampSize pageNum).toInt ∧ (clampSize pageNum).toInt ≤ 100 := by
  rw [toInt_clampSize]
  omega

theorem accepted_iff : Accepted pageNum ↔ 1 ≤ pageNum.toInt ∧ pageNum.toInt ≤ 100 := by
  rw [Accepted, Int64.le_iff_toInt_le, Int64.le_iff_toInt_le]
  rfl

theorem clampSize_eq (h : Accepted pageNum) : clampSize pageNum = pageNum := by
  rw [accepted_iff] at h
  rw [← Int64.toInt_inj, toInt_clampSize]
  omega

theorem toNat_min (a b : UInt64) : (min a b).toNat = min a.toNat b.toNat := by
  show (if a ≤ b then a else b).toNat = _
  by_cases h : a ≤ b
  · rw [if_pos h, min_eq_left (UInt64.le_iff_toNat_le.mp h)]
  · rw [if_neg h, min_eq_right]
    exact (not_le.mp fun hle => h (UInt64.le_iff_toNat_le.mpr hle)).le

theorem paginate_eq (items : Vec α) (hfits : Fits page (clampSize pageNum)) :
    paginate items page pageNum =
      some (pageOf items.toList page (clampSize pageNum), items.len) := by
  obtain ⟨hone, hhundred⟩ := clampSize_mem pageNum
  have hoffset := toInt_offsetOf (by omega) hfits
  have hlt := items.length_lt
  generalize hindex : (pagesBefore page).toNat * (clampSize pageNum).toInt.toNat = offset at hoffset
  have hstart : (min (offsetOf (max page 1) (clampSize pageNum)) items.len).toUInt64.toNat =
      min offset items.toList.length := by
    refine asUsize_eq ?_
    rw [I64.toInt_min, hoffset, items.toInt_len]
    omega
  have hsize : (clampSize pageNum).toUInt64.toNat = (clampSize pageNum).toInt.toNat :=
    asUsize_eq (Int.toNat_of_nonneg (by omega)).symm
  have htotal : items.len.toUInt64.toNat = items.toList.length := asUsize_eq items.toInt_len
  have hstop : (min ((min (offsetOf (max page 1) (clampSize pageNum)) items.len).toUInt64 +
      (clampSize pageNum).toUInt64) items.len.toUInt64).toNat =
        min (min offset items.toList.length + (clampSize pageNum).toInt.toNat)
          items.toList.length := by
    rw [toNat_min, UInt64.toNat_add, hstart, hsize, htotal, Nat.mod_eq_of_lt (by omega)]
  have hrange : (min (offsetOf (max page 1) (clampSize pageNum)) items.len).toUInt64 ≤
      min ((min (offsetOf (max page 1) (clampSize pageNum)) items.len).toUInt64 +
        (clampSize pageNum).toUInt64) items.len.toUInt64 := by
    rw [UInt64.le_iff_toNat_le, hstop, hstart]
    omega
  have hslice : (items.toList.drop (min offset items.toList.length)).take
      (min (min offset items.toList.length + (clampSize pageNum).toInt.toNat) items.toList.length -
        min offset items.toList.length) = pageOf items.toList page (clampSize pageNum) := by
    rw [pageOf, slice, hindex]
    by_cases hbeyond : items.toList.length ≤ offset
    · rw [min_eq_right hbeyond, List.drop_length, List.take_nil, List.drop_eq_nil_of_le hbeyond,
        List.take_nil]
    · rw [min_eq_left (not_le.mp hbeyond).le, List.take_eq_take_iff, List.length_drop]
      omega
  unfold paginate
  rw [if_pos ⟨hrange, by rw [hstop]; omega⟩, hstart, hstop, hslice]

/-! ## Safe offsets -/

/-- The offset of the page is the mathematical one, the page is answered, and there is nothing on
    a page beyond the last one. -/
structure Safe (page size offset : Int64) (items : Option (List β)) (total : ℕ) : Prop where
  exact : offset.toInt = pagesBefore page * size.toInt
  answered : items.isSome
  beyond : (total : ℤ) ≤ pagesBefore page * size.toInt → items = some []

theorem safe_iff {items : Option (List β)} {total : ℕ} (hsize : 0 ≤ size.toInt)
    (hanswered : Fits page size → items.isSome)
    (hbeyond : Fits page size → (total : ℤ) ≤ pagesBefore page * size.toInt → items = some []) :
    Safe page size (offsetOf (max page 1) size) items total ↔ Fits page size := by
  constructor
  · intro h
    exact (toInt_offsetOf_iff hsize).mp h.exact
  · intro hfits
    exact ⟨(toInt_offsetOf_iff hsize).mpr hfits, hanswered hfits, hbeyond hfits⟩

theorem safe_paginate_clamped (items : Vec α) (page pageNum : Int64) :
    Safe page (clampSize pageNum) (offsetOf (max page 1) (clampSize pageNum))
      ((paginate items page pageNum).map (·.1)) items.toList.length ↔
        Fits page (clampSize pageNum) := by
  have hsize : 0 ≤ (clampSize pageNum).toInt := by
    have := clampSize_mem pageNum
    omega
  refine safe_iff hsize (fun hfits => ?_) (fun hfits hbeyond => ?_)
  · rw [paginate_eq items hfits]
    rfl
  · rw [paginate_eq items hfits, Option.map_some, pageOf_eq_nil hsize hbeyond]

/-- With the size of the request in place of the clamped one. -/
theorem safe_paginate (items : Vec α) (page pageNum : Int64) :
    Safe page pageNum (offsetOf (max page 1) (clampSize pageNum))
      ((paginate items page pageNum).map (·.1)) items.toList.length ↔
        page ≤ 1 ∨ Accepted pageNum ∧ Fits page pageNum := by
  have hclamped := safe_paginate_clamped items page pageNum
  have hsize := clampSize_mem pageNum
  have hone : (1 : Int64).toInt = 1 := rfl
  by_cases hpage : page ≤ 1
  · -- the offset is 0, whatever the size is
    have hzero : pagesBefore page = 0 := by
      rw [Int64.le_iff_toInt_le, hone] at hpage
      rw [pagesBefore]
      omega
    have hsafe := hclamped.mpr (by rw [Fits, hzero]; omega)
    refine iff_of_true ⟨?_, hsafe.answered, fun hbeyond => hsafe.beyond ?_⟩ (.inl hpage)
    · rw [hsafe.exact, hzero, Int.zero_mul, Int.zero_mul]
    · rw [hzero, Int.zero_mul] at hbeyond ⊢
      exact hbeyond
  · have hpos : 0 < pagesBefore page := by
      rw [Int64.le_iff_toInt_le, hone] at hpage
      rw [pagesBefore]
      omega
    constructor
    · intro h
      have hexact := h.exact
      have heq : pageNum.toInt = (clampSize pageNum).toInt := by
        by_cases hfits : Fits page (clampSize pageNum)
        · rw [(toInt_offsetOf_iff (by omega)).mpr hfits] at hexact
          exact (mul_left_cancel₀ hpos.ne' hexact).symm
        · -- only a smaller size has a smaller offset, but then the clamped size is 1
          have hoffset := Int64.toInt_lt (offsetOf (max page 1) (clampSize pageNum))
          have hbefore : pagesBefore page < 2 ^ 63 := by
            have := Int64.toInt_lt page
            rw [pagesBefore]
            omega
          rw [Fits, not_lt] at hfits
          have hlt : pageNum.toInt < (clampSize pageNum).toInt :=
            lt_of_mul_lt_mul_left (by omega) hpos.le
          have hclamp : (clampSize pageNum).toInt = 1 := by
            rw [toInt_clampSize] at hlt ⊢
            omega
          rw [hclamp] at hfits
          omega
      have hsame : clampSize pageNum = pageNum := Int64.toInt_inj.mp heq.symm
      refine .inr ⟨accepted_iff.mpr (by omega), ?_⟩
      rw [hsame] at hclamped h
      exact hclamped.mp h
    · rintro (hle | ⟨haccepted, hfits⟩)
      · exact absurd hle hpage
      · rw [clampSize_eq haccepted] at hclamped ⊢
        exact hclamped.mpr hfits

theorem resolveWith_of_accepted (default : Int64) (e : ApiError) (page : Int64)
    (h : Accepted pageNum) :
    resolveWith default e (some page) (some pageNum) = .ok (max page 1, pageNum) :=
  if_pos h

theorem history_items (toLowercase : String → String) (window : UInt64 → Vec LogEntry)
    (params : LogParams) (page : Int64) (h : Accepted pageNum) :
    (history toLowercase window
        { params with page := some page, pageNum := some pageNum }).toOption.map (·.items) =
      some (((logMatches toLowercase window params).toList.drop
        (asUsize (offsetOf (max page 1) pageNum))).take (asUsize pageNum)) := by
  unfold history
  rw [resolveWith_of_accepted _ _ _ h]
  rfl

/-- The offsets of friends, rooms, logs and SQL queries: they are safe just if the product fits;
    friends and their requests also need a size that needs no clamping, or the first page. -/
theorem offsets_safe_iff (items : Vec α) (rooms : Vec Json) (myPhira : Option Int64)
    (toLowercase : String → String) (window : UInt64 → Vec LogEntry) (params : LogParams)
    (rows : List β) (page pageNum : Int64) :
    (Safe page pageNum (offsetOf (max page 1) (clampSize pageNum))
      ((paginate items page pageNum).map (·.1)) items.toList.length ↔
        page ≤ 1 ∨ Accepted pageNum ∧ Fits page pageNum) ∧
    (Safe page (clampSize pageNum) (offsetOf (max page 1) (clampSize pageNum))
      ((paginate items page pageNum).map (·.1)) items.toList.length ↔
        Fits page (clampSize pageNum)) ∧
    (Accepted pageNum →
      (resolvePage (some page) (some pageNum) = .ok (max page 1, pageNum) ∧
        (Safe page pageNum (offsetOf (max page 1) pageNum)
          (some (paginateRoomItems rooms (max page 1) pageNum myPhira)) rooms.toList.length ↔
            Fits page pageNum)) ∧
      (Safe page pageNum (offsetOf (max page 1) pageNum)
        ((history toLowercase window
          { params with page := some page, pageNum := some pageNum }).toOption.map (·.items))
        (logMatches toLowercase window params).toList.length ↔ Fits page pageNum) ∧
      (PaginationParams.offsetLimit ⟨some page, some pageNum⟩ =
          .ok (offsetOf (max page 1) pageNum, pageNum) ∧
        (Safe page pageNum (offsetOf (max page 1) pageNum)
          (limitOffset rows pageNum (offsetOf (max page 1) pageNum)).toOption rows.length ↔
            Fits page pageNum))) := by
  refine ⟨safe_paginate items page pageNum, safe_paginate_clamped items page pageNum, fun h => ?_⟩
  have hsize : 0 ≤ pageNum.toInt := by
    have := accepted_iff.mp h
    omega
  refine ⟨⟨resolveWith_of_accepted _ _ _ h, ?_⟩, ?_, ⟨?_, ?_⟩⟩
  · refine safe_iff hsize (fun _ => rfl) (fun hfits hbeyond => ?_)
    rw [paginateRoomItems, skip_take_eq _ hsize hfits, pageOf_eq_nil hsize hbeyond, List.map_nil]
  · rw [history_items toLowercase window params page h]
    refine safe_iff hsize (fun _ => rfl) (fun hfits hbeyond => ?_)
    rw [skip_take_eq _ hsize hfits, pageOf_eq_nil hsize hbeyond]
  · unfold PaginationParams.offsetLimit PaginationParams.resolve
    rw [resolveWith_of_accepted _ _ _ h]
    rfl
  · refine safe_iff hsize (fun hfits => ?_) (fun hfits hbeyond => ?_)
    · rw [limitOffset_eq rows hsize hfits]
      rfl
    · rw [limitOffset_eq rows hsize hfits, pageOf_eq_nil hsize hbeyond]
      rfl

/-- The third page of ten friends. -/
theorem offsets_safe_third (items : Vec ℕ) :
    Safe 3 10 20 ((paginate items 3 10).map (·.1)) items.toList.length :=
  (offsets_safe_iff items ⟨[], by decide⟩ none id (fun _ => ⟨[], by decide⟩)
    ⟨none, none, none, none, none, none⟩ ([] : List ℕ) 3 10).1.mpr (.inr ⟨by decide, by decide⟩)

/-- The slice of this page starts after its end. -/
theorem not_safe_paginate :
    paginate (⟨[], by decide⟩ : Vec ℕ) 92233720368547760 100 = none ∧
    ¬ Safe 92233720368547760 100 (offsetOf (max 92233720368547760 1) (clampSize 100))
      ((paginate (⟨[], by decide⟩ : Vec ℕ) 92233720368547760 100).map (·.1)) 0 := by
  have hnone : paginate (⟨[], by decide⟩ : Vec ℕ) 92233720368547760 100 = none := by
    decide +kernel
  refine ⟨hnone, fun h => ?_⟩
  have hanswered := h.answered
  rw [hnone] at hanswered
  cases hanswered

end Ppb.Pages
