import Ppb.Pages.Offsets

/-!
# Walks through the pages

A client reads the first page, computes from `total` and `pageNum` how many pages there are, and
reads them. `WalkIsRight` says that `total` is the number of the entries that match on each of
these pages, and that the pages together are these entries.

* `walk_iff`: it comes down to the number of pages.
* `pagination_walk_iff`: which lists are walked through, and when.
-/

namespace Ppb.Pages

variable {α β : Type}

/-! ## Walks -/

/-- `ceil(total / pageNum)`; no page for a size that is not positive. -/
def Page.count (r : Page α) : ℕ :=
  if 0 < r.pageNum.toInt then r.total.toInt.toNat ⌈/⌉ r.pageNum.toInt.toNat else 0

/-- A walk through an endpoint that answers page 1 gives what was found; `respond page` is the
    answer for a page, if it is not an error. -/
def WalkIsRight (found : List α) (respond : Int64 → Option (Page α)) : Prop :=
  ∀ first, respond 1 = some first → first.total.toInt = found.length ∧
    ∃ pages, (List.range first.count).mapM (fun i => respond (.ofNat (i + 1))) = some pages ∧
      (∀ r ∈ pages, r.total.toInt = found.length ∧ r.pageNum = first.pageNum) ∧
      (pages.map (·.items)).flatten = found

/-- The total on every page, also beyond the last one. -/
def TotalsAreRight (found : List α) (respond : Int64 → Option (Page α)) : Prop :=
  ∀ page r, respond page = some r → r.total.toInt = found.length

theorem mapM_eq_some_map {l : List α} {f : α → Option β} {g : α → β}
    (h : ∀ a ∈ l, f a = some (g a)) : l.mapM f = some (l.map g) := by
  induction l with
  | nil => rfl
  | cons a l ih =>
    obtain ⟨ha, hl⟩ := List.forall_mem_cons.mp h
    rw [List.mapM_cons, ha, ih hl]
    rfl

/-- If every page is a slice of what was found, it only matters how many there are. -/
theorem walk_iff {found : List α} {respond : Int64 → Option (Page α)} {first : Page α} (size : ℕ)
    (hfirst : respond 1 = some first) (htotal : first.total.toInt = found.length)
    (hpages : ∀ i < first.count, respond (.ofNat (i + 1)) =
      some ⟨slice found size i, first.total, .ofNat (i + 1), first.pageNum⟩) :
    WalkIsRight found respond ↔ found.length ≤ first.count * size := by
  have hwalk := mapM_eq_some_map fun i hi => hpages i (List.mem_range.mp hi)
  have hitems : (((List.range first.count).map fun i =>
      (⟨slice found size i, first.total, .ofNat (i + 1), first.pageNum⟩ : Page α)).map
        (·.items)) = (List.range first.count).map (slice found size) := by
    rw [List.map_map]
    rfl
  constructor
  · intro h
    obtain ⟨-, pages, hpages', -, hflatten⟩ := h first hfirst
    rw [hwalk] at hpages'
    rw [← Option.some.inj hpages', hitems] at hflatten
    exact flatten_pages_eq_self_iff.mp hflatten
  · intro hroom first' hfirst'
    obtain rfl := Option.some.inj (hfirst.symm.trans hfirst')
    refine ⟨htotal, _, hwalk, ?_, ?_⟩
    · intro r hr
      obtain ⟨i, -, rfl⟩ := List.mem_map.mp hr
      exact ⟨htotal, rfl⟩
    · rw [hitems]
      exact flatten_pages_eq_self_iff.mpr hroom

/-- With the size that it echoes an endpoint has as many pages as it needs. -/
theorem Page.le_count_mul {r : Page α} {n : ℕ} (hsize : 0 < r.pageNum.toInt)
    (htotal : r.total.toInt = n) : n ≤ r.count * r.pageNum.toInt.toNat := by
  rw [Page.count, if_pos hsize, htotal, Int.toNat_natCast]
  exact le_ceilDiv_mul (by omega)

/-- Every page of a walk starts before the end. -/
theorem Page.mul_lt_of_lt_count {r : Page α} {n i : ℕ} (htotal : r.total.toInt = n)
    (hi : i < r.count) : i * r.pageNum.toInt.toNat < n := by
  unfold Page.count at hi
  split_ifs at hi with hsize
  · rw [htotal, Int.toNat_natCast] at hi
    exact mul_lt_of_lt_ceilDiv (by omega) hi
  · omega

/-! ## The pages of a walk -/

theorem toInt_page {i : ℕ} (hi : i + 1 < 2 ^ 63) : (Int64.ofNat (i + 1)).toInt = i + 1 := by
  rw [Int64.toInt_ofNat_of_lt hi]
  omega

theorem pagesBefore_page {i : ℕ} (hi : i + 1 < 2 ^ 63) : pagesBefore (.ofNat (i + 1)) = i := by
  rw [pagesBefore, toInt_page hi]
  omega

theorem max_page {i : ℕ} (hi : i + 1 < 2 ^ 63) :
    max (Int64.ofNat (i + 1)) 1 = .ofNat (i + 1) := by
  rw [← Int64.toInt_inj, I64.toInt_max, toInt_page hi]
  show max (i + 1 : ℤ) 1 = _
  omega

theorem pageOf_page (l : List α) {size : Int64} {i : ℕ} (hi : i + 1 < 2 ^ 63) :
    pageOf l (.ofNat (i + 1)) size = slice l size.toInt.toNat i := by
  rw [pageOf, pagesBefore_page hi, Int.toNat_natCast]

theorem fits_page {size : Int64} {i n : ℕ} (hsize : 0 ≤ size.toInt) (hi : i + 1 < 2 ^ 63)
    (hlt : i * size.toInt.toNat < n) (hn : n < 2 ^ 63) : Fits (.ofNat (i + 1)) size := by
  have hcast : ((i * size.toInt.toNat : ℕ) : ℤ) = i * size.toInt := by
    rw [Int.natCast_mul, Int.toNat_of_nonneg hsize]
  rw [Fits, pagesBefore_page hi]
  omega

/-- The numbers of the pages of a walk are small enough. -/
theorem walk_page {r : Page α} {n i : ℕ} (size : Int64) (htotal : r.total.toInt = n)
    (hn : n < 2 ^ 63) (hi : i < r.count) (hsize : 0 ≤ size.toInt)
    (hle : size.toInt ≤ r.pageNum.toInt) : i + 1 < 2 ^ 63 ∧ Fits (.ofNat (i + 1)) size := by
  have hpos : 0 < r.pageNum.toInt := by
    by_contra hneg
    rw [Page.count, if_neg hneg] at hi
    omega
  have hlt := r.mul_lt_of_lt_count htotal hi
  have hone : i * 1 ≤ i * r.pageNum.toInt.toNat := Nat.mul_le_mul_left i (by omega)
  have hmul : i * size.toInt.toNat ≤ i * r.pageNum.toInt.toNat :=
    Nat.mul_le_mul_left i (by omega)
  have hnext : i + 1 < 2 ^ 63 := by omega
  exact ⟨hnext, fits_page hsize hnext (by omega) hn⟩

theorem fits_first (size : Int64) : Fits 1 size := by
  have hzero : pagesBefore 1 = 0 := rfl
  rw [Fits, hzero]
  omega

/-- An endpoint that answers nothing breaks nothing. -/
theorem walkIsRight_of_none {found : List α} {respond : Int64 → Option (Page α)}
    (h : respond 1 = none) : WalkIsRight found respond := by
  intro first hfirst
  rw [h] at hfirst
  cases hfirst

theorem toOption_bind_pure {ε : Type} (r : Except ε α) (f : α → β) :
    (r >>= fun a => pure (f a)).toOption = r.toOption.map f := by
  cases r <;> rfl

/-! ## Audit events -/

section Audit

variable (events : Vec AuditEvent) (order : Order AuditEvent) (params : AuditFilterParams)

def auditPage (page : Int64) : Option (Page AuditEvent) :=
  (auditList events order { params with page := some page }).toOption

theorem auditPage_of_accepted {k : Int64} (hk : params.pageNum.getD 20 = k) (h : Accepted k)
    (page : Int64) : auditPage events order params page =
      (limitOffset (auditMatches events order params) k (offsetOf (max page 1) k)).toOption.map
        fun found => ⟨found, .ofNat found.length, max page 1, k⟩ := by
  subst hk
  rw [auditPage, auditList, resolveWith]
  simp only [Option.getD_some, if_pos h]
  exact toOption_bind_pure _ _

theorem auditPage_of_refused (h : ¬ Accepted (params.pageNum.getD 20)) (page : Int64) :
    auditPage events order params page = none := by
  rw [auditPage, auditList, resolveWith]
  simp only [if_neg h]
  rfl

theorem length_auditMatches_lt : (auditMatches events order params).length < 2 ^ 63 := by
  have hperm := (order.perm (events.toList.filter params.matches)).length_eq
  have hle := List.length_filter_le params.matches events.toList
  have hlt := events.length_lt
  rw [auditMatches]
  omega

/-- The total is the length of the page, so the walk ends after the first one. -/
theorem audit_walk_iff : WalkIsRight (auditMatches events order params)
    (auditPage events order params) ↔ (Accepted (params.pageNum.getD 20) →
      (auditMatches events order params).length ≤ (params.pageNum.getD 20).toInt.toNat) := by
  by_cases h : Accepted (params.pageNum.getD 20)
  · generalize hk : params.pageNum.getD 20 = k at h
    have hsize := accepted_iff.mp h
    generalize hfound : auditMatches events order params = found
    have hlt : found.length < 2 ^ 63 := hfound ▸ length_auditMatches_lt events order params
    have hfirst : auditPage events order params 1 =
        some ⟨slice found k.toInt.toNat 0, .ofNat (slice found k.toInt.toNat 0).length, 1, k⟩ := by
      have hslice : pageOf found 1 k = slice found k.toInt.toNat 0 := rfl
      rw [auditPage_of_accepted events order params hk h, hfound,
        limitOffset_eq _ (by omega) (fits_first k), hslice]
      rfl
    have hlength : (slice found k.toInt.toNat 0).length = min k.toInt.toNat found.length := by
      simp [slice]
    constructor
    · intro hwalk _
      obtain ⟨htotal, -⟩ := hwalk _ hfirst
      rw [Int64.toInt_ofNat_of_lt (by omega)] at htotal
      omega
    · intro hle
      have hle := hle h
      have htotal : (Int64.ofNat (slice found k.toInt.toNat 0).length).toInt = found.length := by
        rw [Int64.toInt_ofNat_of_lt (by omega)]
        omega
      refine (walk_iff k.toInt.toNat hfirst htotal fun i hi => ?_).mpr
        (Page.le_count_mul (show 0 < k.toInt by omega) htotal)
      -- the second page would start at the end
      have hzero : i = 0 := by
        have hstart : i * k.toInt.toNat < found.length := Page.mul_lt_of_lt_count htotal hi
        by_contra hne
        have hmul := Nat.mul_le_mul_right k.toInt.toNat (Nat.one_le_iff_ne_zero.mpr hne)
        omega
      subst hzero
      exact hfirst
  · exact iff_of_true (walkIsRight_of_none (auditPage_of_refused events order params h 1))
      fun haccepted => absurd haccepted h

/-- On the second page the total is that of the rest. -/
theorem audit_totals_iff : TotalsAreRight (auditMatches events order params)
    (auditPage events order params) ↔ (Accepted (params.pageNum.getD 20) →
      auditMatches events order params = []) := by
  by_cases h : Accepted (params.pageNum.getD 20)
  · generalize hk : params.pageNum.getD 20 = k at h
    have hsize := accepted_iff.mp h
    generalize hfound : auditMatches events order params = found
    have hlt : found.length < 2 ^ 63 := hfound ▸ length_auditMatches_lt events order params
    constructor
    · intro htotals _
      have hfits : Fits 2 k := by
        have hone : pagesBefore 2 = 1 := rfl
        rw [Fits, hone]
        omega
      have hsecond : auditPage events order params 2 =
          some ⟨slice found k.toInt.toNat 1, .ofNat (slice found k.toInt.toNat 1).length, 2, k⟩ := by
        have hslice : pageOf found 2 k = slice found k.toInt.toNat 1 := rfl
        rw [auditPage_of_accepted events order params hk h, hfound,
          limitOffset_eq _ (by omega) hfits, hslice]
        rfl
      have htotal := htotals 2 _ hsecond
      have hlength : (slice found k.toInt.toNat 1).length =
          min k.toInt.toNat (found.length - k.toInt.toNat) := by simp [slice]
      rw [Int64.toInt_ofNat_of_lt (by omega)] at htotal
      rw [← List.length_eq_zero_iff]
      omega
    · intro hnil page r hr
      obtain rfl := hnil h
      rw [auditPage_of_accepted events order params hk h, hfound, limitOffset] at hr
      split_ifs at hr
      · cases hr
      · rw [← Option.some.inj hr, List.drop_nil, List.take_nil]
        rfl
  · refine iff_of_true (fun page r hr => ?_) fun haccepted => absurd haccepted h
    rw [auditPage_of_refused events order params h] at hr
    cases hr

end Audit

/-! ## Users -/

section Users

variable (ilike : String → String → Bool) (users : Vec UserRow) (order : Order UserRow)
  (params : UserListParams)

/-- The users that match, as they are shown, in the order of the list. -/
def userMatches : List AdminUserItem :=
  (order.sort (users.toList.filter (params.matches ilike))).map UserRow.toAdminItem

def userPage (page : Int64) : Option (Page AdminUserItem) :=
  (listUsers ilike users order { params with page := some page }).toOption

theorem matches_of_phiraId {pid : Int64} (h : params.phiraId = some pid) :
    params.matches ilike = fun u => u.phiraId == pid := by
  funext u
  simp only [UserListParams.matches, h]

theorem matches_of_search (h : params.phiraId = none) :
    params.matches ilike = fun u => (params.search.filter (· != "")).all fun search =>
      ilike u.usernameCache ("%" ++ search ++ "%") := by
  funext u
  simp only [UserListParams.matches, h]

/-- The three queries select the users that match. -/
theorem userRows_eq (limit offset : Int64) : userRows ilike users order params limit offset =
    limitOffset (order.sort (users.toList.filter (params.matches ilike))) limit offset := by
  rw [userRows]
  cases hphira : params.phiraId with
  | some pid => rw [matches_of_phiraId ilike params hphira]
  | none =>
    rw [matches_of_search ilike params hphira]
    cases params.search.filter (· != "") with
    | some search => rfl
    | none => simp

theorem userPage_of_accepted {k : Int64} (hk : params.pageNum.getD 20 = k) (h : Accepted k)
    (page : Int64) : userPage ilike users order params page =
      (limitOffset (order.sort (users.toList.filter (params.matches ilike))) k
        (offsetOf (max page 1) k)).toOption.map
          fun rows => ⟨rows.map UserRow.toAdminItem, users.len, max page 1, k⟩ := by
  subst hk
  rw [userPage, listUsers, resolveWith]
  simp only [Option.getD_some, if_pos h]
  rw [← userRows_eq]
  exact toOption_bind_pure _ _

theorem userPage_of_refused (h : ¬ Accepted (params.pageNum.getD 20)) (page : Int64) :
    userPage ilike users order params page = none := by
  rw [userPage, listUsers, resolveWith]
  simp only [if_neg h]
  rfl

theorem length_userMatches :
    (userMatches ilike users order params).length =
      (users.toList.filter (params.matches ilike)).length := by
  rw [userMatches, List.length_map, (order.perm _).length_eq]

/-- The total counts all users. -/
theorem total_right_iff :
    users.len.toInt = (userMatches ilike users order params).length ↔
      ∀ u ∈ users.toList, params.matches ilike u = true := by
  rw [users.toInt_len, length_userMatches, ← List.length_filter_eq_length_iff]
  omega

theorem slice_map {γ : Type} (f : α → γ) (l : List α) (size i : ℕ) :
    (slice l size i).map f = slice (l.map f) size i := by
  rw [slice, slice, List.map_take, List.map_drop]

/-- A page that fits. -/
theorem userPage_of_fits {k : Int64} (hk : params.pageNum.getD 20 = k) (h : Accepted k)
    {page : Int64} (hfits : Fits page k) : userPage ilike users order params page =
      some ⟨pageOf (userMatches ilike users order params) page k, users.len, max page 1, k⟩ := by
  have hsize := accepted_iff.mp h
  have hmap : pageOf (userMatches ilike users order params) page k =
      (pageOf (order.sort (users.toList.filter (params.matches ilike))) page k).map
        UserRow.toAdminItem := by
    rw [pageOf, pageOf, slice_map]
    rfl
  rw [userPage_of_accepted ilike users order params hk h, limitOffset_eq _ (by omega) hfits, hmap]
  rfl

theorem user_walk_iff : WalkIsRight (userMatches ilike users order params)
    (userPage ilike users order params) ↔ (Accepted (params.pageNum.getD 20) →
      ∀ u ∈ users.toList, params.matches ilike u = true) := by
  by_cases h : Accepted (params.pageNum.getD 20)
  · generalize hk : params.pageNum.getD 20 = k at h
    have hsize := accepted_iff.mp h
    have hfirst := userPage_of_fits ilike users order params hk h (fits_first k)
    rw [← total_right_iff ilike users order params]
    constructor
    · intro hwalk _
      exact (hwalk _ hfirst).1
    · intro htotal
      have htotal := htotal h
      have hlt := users.length_lt
      rw [users.toInt_len] at htotal
      refine (walk_iff k.toInt.toNat hfirst (by rw [users.toInt_len, htotal])
        fun i hi => ?_).mpr (Page.le_count_mul (show 0 < k.toInt by omega)
          (by rw [users.toInt_len, htotal]))
      obtain ⟨hnext, hfits⟩ := walk_page k users.toInt_len hlt hi (by omega) le_rfl
      rw [userPage_of_fits ilike users order params hk h hfits, max_page hnext, pageOf_page _ hnext]
  · exact iff_of_true (walkIsRight_of_none (userPage_of_refused ilike users order params h 1))
      fun haccepted => absurd haccepted h

theorem user_totals_iff : TotalsAreRight (userMatches ilike users order params)
    (userPage ilike users order params) ↔ (Accepted (params.pageNum.getD 20) →
      ∀ u ∈ users.toList, params.matches ilike u = true) := by
  by_cases h : Accepted (params.pageNum.getD 20)
  · generalize hk : params.pageNum.getD 20 = k at h
    rw [← total_right_iff ilike users order params]
    constructor
    · intro htotals _
      exact htotals 1 _ (userPage_of_fits ilike users order params hk h (fits_first k))
    · intro htotal page r hr
      rw [userPage_of_accepted ilike users order params hk h] at hr
      obtain ⟨rows, -, rfl⟩ := Option.map_eq_some_iff.mp hr
      exact htotal h
  · refine iff_of_true (fun page r hr => ?_) fun haccepted => absurd haccepted h
    rw [userPage_of_refused ilike users order params h] at hr
    cases hr

end Users

/-! ## Friends and requests -/

section Friends

variable (items : Vec α) (pageNum : Option Int64)

/-- The pages that the echoed size announces have room for the list, although a page has at most
    100 entries. -/
def HasRoom (n : ℕ) (size : Int64) : Prop :=
  n = 0 ∨ Accepted size ∨ 100 < size ∧ n ≤ n ⌈/⌉ size.toInt.toNat * 100

theorem paginated_eq {page : Int64} (hfits : Fits page (clampSize (pageNum.getD 50))) :
    paginated items ⟨some page, pageNum⟩ =
      some ⟨pageOf items.toList page (clampSize (pageNum.getD 50)), items.len, max page 1,
        pageNum.getD 50⟩ := by
  rw [paginated, Option.getD_some, paginate_eq items hfits]
  rfl

theorem paginated_totals (items : Vec α) (pageNum : Option Int64) :
    TotalsAreRight items.toList fun page => paginated items ⟨some page, pageNum⟩ := by
  intro page r hr
  obtain ⟨⟨slice, total⟩, hslice, hr⟩ := Option.bind_eq_some_iff.mp hr
  have htotal : total = items.len := by
    unfold paginate at hslice
    simp only [] at hslice
    split_ifs at hslice
    exact (Prod.mk.inj (Option.some.inj hslice)).2.symm
  rw [← Option.some.inj hr, htotal, ← items.toInt_len]

theorem paginated_walk_iff (items : Vec α) (pageNum : Option Int64) :
    WalkIsRight items.toList (fun page => paginated items ⟨some page, pageNum⟩) ↔
      HasRoom items.toList.length (pageNum.getD 50) := by
  generalize hk : pageNum.getD 50 = k
  have hclamp := clampSize_mem k
  have hclampEq := toInt_clampSize k
  have hhundred : (100 : Int64).toInt = 100 := rfl
  have hfirst := paginated_eq items pageNum (fits_first (clampSize (pageNum.getD 50)))
  rw [hk] at hfirst
  have hwalk : WalkIsRight items.toList (fun page => paginated items ⟨some page, pageNum⟩) ↔
      items.toList.length ≤ (⟨pageOf items.toList 1 (clampSize k), items.len, max 1 1, k⟩ :
        Page α).count * (clampSize k).toInt.toNat := by
    refine walk_iff (clampSize k).toInt.toNat hfirst items.toInt_len fun i hi => ?_
    have hpos : 0 < k.toInt := by
      by_contra hneg
      rw [Page.count, if_neg hneg] at hi
      omega
    obtain ⟨hnext, hfits⟩ := walk_page (clampSize k) items.toInt_len items.length_lt hi
      (by omega) (show (clampSize k).toInt ≤ k.toInt by omega)
    rw [paginated_eq items pageNum (by rwa [hk]), hk, max_page hnext, pageOf_page _ hnext]
  have hcount : (⟨pageOf items.toList 1 (clampSize k), items.len, max 1 1, k⟩ : Page α).count =
      if 0 < k.toInt then items.toList.length ⌈/⌉ k.toInt.toNat else 0 := by
    rw [Page.count, items.toInt_len, Int.toNat_natCast]
  rw [hwalk, hcount, HasRoom, accepted_iff, Int64.lt_iff_toInt_lt, hhundred]
  split_ifs with hpos
  · have hroom : items.toList.length ≤ items.toList.length ⌈/⌉ k.toInt.toNat * k.toInt.toNat :=
      le_ceilDiv_mul (by omega)
    by_cases hle : k.toInt ≤ 100
    · have hsame : (clampSize k).toInt.toNat = k.toInt.toNat := by omega
      rw [hsame]
      exact iff_of_true hroom (.inr (.inl ⟨hpos, hle⟩))
    · have hmax : (clampSize k).toInt.toNat = 100 := by omega
      rw [hmax]
      omega
  · rw [Nat.zero_mul]
    omega

end Friends

/-! ## Logs -/

section Logs

variable (toLowercase : String → String) (window : UInt64 → Vec LogEntry) (params : LogParams)

def logPage (page : Int64) : Option (Page LogEntry) :=
  (history toLowercase window { params with page := some page }).toOption

theorem logPage_eq (page : Int64) : logPage toLowercase window params page =
    if Accepted (params.pageNum.getD 20) then
      some ⟨((logMatches toLowercase window params).toList.drop
          (asUsize (offsetOf (max page 1) (params.pageNum.getD 20)))).take
            (asUsize (params.pageNum.getD 20)),
        (logMatches toLowercase window params).len, max page 1, params.pageNum.getD 20⟩
    else none := by
  rw [logPage, history, resolveWith]
  simp only [Option.getD_some]
  split_ifs <;> rfl

theorem log_totals :
    TotalsAreRight (logMatches toLowercase window params).toList
      (logPage toLowercase window params) := by
  intro page r hr
  rw [logPage_eq] at hr
  split_ifs at hr
  rw [← Option.some.inj hr]
  exact Vec.toInt_len _

theorem log_walk :
    WalkIsRight (logMatches toLowercase window params).toList
      (logPage toLowercase window params) := by
  by_cases h : Accepted (params.pageNum.getD 20)
  · have hpage (page : Int64) (hfits : Fits page (params.pageNum.getD 20)) :
        logPage toLowercase window params page =
          some ⟨pageOf (logMatches toLowercase window params).toList page (params.pageNum.getD 20),
            (logMatches toLowercase window params).len, max page 1, params.pageNum.getD 20⟩ := by
      have hsize := accepted_iff.mp h
      rw [logPage_eq, if_pos h, skip_take_eq _ (by omega) hfits]
    generalize params.pageNum.getD 20 = k at h hpage
    have hsize := accepted_iff.mp h
    generalize logMatches toLowercase window params = entries at hpage
    refine (walk_iff k.toInt.toNat (hpage 1 (fits_first k)) entries.toInt_len
      fun i hi => ?_).mpr (Page.le_count_mul (show 0 < k.toInt by omega) entries.toInt_len)
    obtain ⟨hnext, hfits⟩ := walk_page k entries.toInt_len entries.length_lt hi (by omega) le_rfl
    rw [hpage _ hfits, max_page hnext, pageOf_page _ hnext]
  · refine walkIsRight_of_none ?_
    rw [logPage_eq, if_neg h]

end Logs

/-! ## All of them -/

/-- The audit list is walked through if it has one page, the users if all of them match, friends
    and their requests if the echoed size announces enough pages, the logs always. Totals are
    right on pages beyond the last one, too, except those of the audit list. -/
theorem pagination_walk_iff (events : Vec AuditEvent) (eventOrder : Order AuditEvent)
    (audit : AuditFilterParams) (ilike : String → String → Bool) (users : Vec UserRow)
    (userOrder : Order UserRow) (search : UserListParams) (friendships : Vec (Uuid × Uuid))
    (friendOrder : Order (Uuid × Uuid)) (requests : Vec RequestRow)
    (requestOrder : Order RequestRow) (user : Uuid) (pageNum : Option Int64)
    (toLowercase : String → String) (window : UInt64 → Vec LogEntry) (logs : LogParams) :
    ((WalkIsRight (auditMatches events eventOrder audit) (auditPage events eventOrder audit) ↔
        (Accepted (audit.pageNum.getD 20) → (auditMatches events eventOrder audit).length ≤
          (audit.pageNum.getD 20).toInt.toNat)) ∧
      (TotalsAreRight (auditMatches events eventOrder audit) (auditPage events eventOrder audit) ↔
        (Accepted (audit.pageNum.getD 20) → auditMatches events eventOrder audit = []))) ∧
    ((WalkIsRight (userMatches ilike users userOrder search)
          (userPage ilike users userOrder search) ↔
        (Accepted (search.pageNum.getD 20) → ∀ u ∈ users.toList, search.matches ilike u = true)) ∧
      (TotalsAreRight (userMatches ilike users userOrder search)
          (userPage ilike users userOrder search) ↔
        (Accepted (search.pageNum.getD 20) → ∀ u ∈ users.toList, search.matches ilike u = true))) ∧
    ((WalkIsRight (friendsOf users friendships friendOrder user).toList
          (fun page => friendList users friendships friendOrder user ⟨some page, pageNum⟩) ↔
        HasRoom (friendsOf users friendships friendOrder user).toList.length (pageNum.getD 50)) ∧
      TotalsAreRight (friendsOf users friendships friendOrder user).toList
        (fun page => friendList users friendships friendOrder user ⟨some page, pageNum⟩)) ∧
    ((WalkIsRight (requestsOf users requests requestOrder user).toList
          (fun page => requestList users requests requestOrder user ⟨some page, pageNum⟩) ↔
        HasRoom (requestsOf users requests requestOrder user).toList.length (pageNum.getD 50)) ∧
      TotalsAreRight (requestsOf users requests requestOrder user).toList
        (fun page => requestList users requests requestOrder user ⟨some page, pageNum⟩)) ∧
    (WalkIsRight (logMatches toLowercase window logs).toList (logPage toLowercase window logs) ∧
      TotalsAreRight (logMatches toLowercase window logs).toList
        (logPage toLowercase window logs)) := by
  refine ⟨⟨audit_walk_iff .., audit_totals_iff ..⟩, ⟨user_walk_iff .., user_totals_iff ..⟩,
    ⟨?_, ?_⟩, ⟨?_, ?_⟩, log_walk toLowercase window logs,
    log_totals toLowercase window logs⟩
  · exact paginated_walk_iff _ _
  · exact paginated_totals _ _
  · exact paginated_walk_iff _ _
  · exact paginated_totals _ _

/-! ### Two users, one of whom is looked for -/

def sampleUser (id : ℕ) : UserRow where
  id := .ofNat 128 id
  phiraId := .ofNat id
  usernameCache := "a"
  avatarCache := ""
  status := "active"
  createdAt := 0
  updatedAt := 0
  lastSeenAt := none

/-- The one user that was found is said to be one of two. -/
theorem not_user_walk : ¬ WalkIsRight
    (userMatches (fun _ _ => true) ⟨[sampleUser 1, sampleUser 2], by decide⟩ .table
      ⟨some 1, none, none, none⟩)
    (userPage (fun _ _ => true) ⟨[sampleUser 1, sampleUser 2], by decide⟩ .table
      ⟨some 1, none, none, none⟩) := by
  intro h
  obtain ⟨htotal, -⟩ := h ⟨[(sampleUser 1).toAdminItem], 2, 1, 20⟩ (by decide +kernel)
  exact absurd htotal (by decide +kernel)

end Ppb.Pages
