import Ppb.Common.JoinedPairs
import Ppb.Common.Text

/-!
# The cache keys of the Phira gateway

`cache_key` of `phira/gateway.rs` (lines 316-320) writes a request to Phira as
`path?name=value&name=value` with the written parameters sorted, and escapes
nothing. `chartListRequest` is the request of `chart_list` (lines 135-173), whose
search text, tags and order come from the user.

* `Request.Plain`: no `?` in the path, no `=` or `&` in a name, and in a value no `=`
  after an `&`. `cacheKey_eq_iff`: among plain requests, those with one key have the
  same path and the same parameters up to their order.
* `value_collides`: with every value that is left out, some request shares its key with
  another.
* `chartListRequest_plain`: the chart list can collide only through what the user types.
-/

namespace Ppb.Phira

open Ppb.JoinedPairs (Plain write)

/-- The query parameters in the order of the call. -/
abbrev Query := List (String × String)

/-- The arguments of `get_json`. -/
structure Request where
  path : String
  query : Query
  deriving DecidableEq, Repr

/-- `format!("{k}={v}")`. -/
def writePair (kv : String × String) : String := kv.1 ++ "=" ++ kv.2

/-- `cache_key`. -/
def cacheKey (path : String) (query : Query) : String :=
  let parts := (query.map writePair).insertionSort (· ≤ ·)
  path ++ "?" ++ "&".intercalate parts

namespace Request

def key (r : Request) : String := cacheKey r.path r.query

/-- The same path, and the same parameters in some order. -/
def Same (r r' : Request) : Prop := r.path = r'.path ∧ r.query.Perm r'.query

/-- The letters that `cache_key` writes do not come in the way. -/
structure Plain (r : Request) : Prop where
  path : '?' ∉ r.path.toList
  query : ∀ kv ∈ r.query, JoinedPairs.Plain '&' '=' (kv.1.toList, kv.2.toList)

end Request

variable {r r' : Request} {query : Query}

/-! ## Keys of plain requests -/

/-- The letters of a name and a value. -/
def letters (kv : String × String) : List Char × List Char := (kv.1.toList, kv.2.toList)

theorem letters_injective : Function.Injective letters := by
  intro kv kv' h
  obtain ⟨hname, hvalue⟩ := Prod.mk.inj h
  exact Prod.ext (String.toList_injective hname) (String.toList_injective hvalue)

theorem toList_writePair (kv : String × String) : (writePair kv).toList = write '=' (letters kv) := by
  simp [writePair, write, letters]

theorem parts_perm (query : Query) :
    (((query.map writePair).insertionSort (· ≤ ·)).map String.toList).Perm
      ((query.map letters).map (write '=')) := by
  have hsorted : ((query.map writePair).insertionSort (· ≤ ·)).Perm (query.map writePair) :=
    List.perm_insertionSort _ _
  have hwritten : (query.map writePair).map String.toList = (query.map letters).map (write '=') := by
    rw [List.map_map, List.map_map]
    exact List.map_congr_left fun kv _ => toList_writePair kv
  exact hwritten ▸ hsorted.map String.toList

theorem toList_cacheKey (path : String) (query : Query) : (cacheKey path query).toList =
    path.toList ++ '?' :: ['&'].intercalate
      (((query.map writePair).insertionSort (· ≤ ·)).map String.toList) := by
  simp [cacheKey]

/-- The order of the parameters is sorted away. -/
theorem cacheKey_perm {query' : Query} (path : String) (h : query.Perm query') :
    cacheKey path query = cacheKey path query' := by
  have hsort : ∀ q : Query, ((q.map writePair).insertionSort (· ≤ ·)).Pairwise (· ≤ ·) :=
    fun q => List.pairwise_insertionSort (· ≤ ·) _
  have hparts : ((query.map writePair).insertionSort (· ≤ ·)).Perm
      ((query'.map writePair).insertionSort (· ≤ ·)) :=
    ((List.perm_insertionSort _ _).trans (h.map writePair)).trans (List.perm_insertionSort _ _).symm
  have heq := hparts.eq_of_pairwise (fun a b _ _ => le_antisymm) (hsort query) (hsort query')
  show path ++ "?" ++ "&".intercalate _ = path ++ "?" ++ "&".intercalate _
  rw [heq]

/-- Two plain requests have one key exactly when they ask for the same. -/
theorem cacheKey_eq_iff (hr : r.Plain) (hr' : r'.Plain) : r.key = r'.key ↔ r.Same r' := by
  constructor
  · intro h
    have hletters := congrArg String.toList h
    rw [Request.key, Request.key, toList_cacheKey, toList_cacheKey] at hletters
    obtain ⟨hpath, hparts⟩ := JoinedPairs.append_cons_inj hr.path hr'.path hletters
    have hplain : ∀ {r : Request}, r.Plain → ∀ p ∈ r.query.map letters, Plain '&' '=' p := by
      intro r hr p hp
      obtain ⟨kv, hkv, rfl⟩ := List.mem_map.mp hp
      exact hr.query kv hkv
    have hperm := JoinedPairs.perm_of_join_eq (by decide) (hplain hr) (hplain hr')
      (parts_perm r.query) (parts_perm r'.query) hparts
    exact ⟨String.toList_injective hpath, (List.map_perm_map_iff letters_injective).mp hperm⟩
  · rintro ⟨hpath, hquery⟩
    rw [Request.key, Request.key, hpath, cacheKey_perm _ hquery]

/-! ## Values with both letters -/

/-- No `=` comes after an `&`. -/
def PlainValue (v : String) : Prop := ∀ a b, v.toList = a ++ '&' :: b → '=' ∉ b

/-- A long enough run of the least letter comes before every other start. -/
theorem replicate_lt (z t u : List Char) :
    List.replicate (z.length + 1) '\x00' ++ t < z ++ '=' :: u := by
  induction z with
  | nil => exact List.cons_lt_cons_iff.mpr (.inl (by decide))
  | cons c z ih =>
    rw [List.length_cons, List.replicate_succ, List.cons_append, List.cons_append,
      List.cons_lt_cons_iff]
    have hleast : '\x00' ≤ c := Nat.zero_le c.val.toNat
    rcases lt_or_eq_of_le hleast with hlt | rfl
    · exact .inl hlt
    · exact .inr ⟨rfl, ih⟩

/-- A value with an `=` after an `&` reads like two parameters: for some name, the request with this
    one parameter has the key of another request. -/
theorem value_collides (path : String) {v : String} (hv : ¬ PlainValue v) :
    ∃ name query, '=' ∉ name.toList ∧ '&' ∉ name.toList ∧
      cacheKey path [(name, v)] = cacheKey path query ∧ ¬ query.Perm [(name, v)] := by
  simp only [PlainValue, not_forall, not_not] at hv
  obtain ⟨a, b, hvalue, heq⟩ := hv
  obtain ⟨z, w, rfl, -⟩ := List.eq_append_cons_of_mem heq
  have hname : ∀ c ∈ List.replicate (z.length + 1) '\x00', c = '\x00' :=
    fun c => List.eq_of_mem_replicate
  refine ⟨String.ofList (List.replicate (z.length + 1) '\x00'),
    [(String.ofList (List.replicate (z.length + 1) '\x00'), String.ofList a),
      (String.ofList z, String.ofList w)], ?_, ?_, ?_, fun hperm => ?_⟩
  · rw [String.toList_ofList]
    exact fun h => absurd (hname _ h) (by decide)
  · rw [String.toList_ofList]
    exact fun h => absurd (hname _ h) (by decide)
  · have hle : writePair (String.ofList (List.replicate (z.length + 1) '\x00'), String.ofList a) ≤
        writePair (String.ofList z, String.ofList w) := by
      refine le_of_lt (String.lt_iff_toList_lt.mpr ?_)
      rw [toList_writePair, toList_writePair]
      simpa [write, letters] using replicate_lt z ('=' :: a) w
    have hsorted : [writePair (String.ofList (List.replicate (z.length + 1) '\x00'),
        String.ofList a), writePair (String.ofList z, String.ofList w)].Pairwise (· ≤ ·) :=
      List.pairwise_pair.mpr hle
    apply String.toList_injective
    rw [toList_cacheKey, toList_cacheKey, List.map_cons, List.map_cons, List.map_cons, List.map_nil,
      hsorted.insertionSort_eq]
    simp [writePair, hvalue]
  · exact absurd hperm.length_eq (by simp)

/-! ## The chart list -/

/-- The request of `chart_list`. The bounds of the rating are given by their texts. -/
def chartListRequest (page pageNum : Int64) (search : Option String) (chartType : Option Int64)
    (ratingMin ratingMax tags order : Option String) : Request where
  path := "chart"
  query := [("page", toString page), ("pageNum", toString pageNum)] ++
    (search.map fun s => ("search", s)).toList ++
    (chartType.map fun value => ("type", toString value)).toList ++
    (if ratingMin.isSome || ratingMax.isSome then
      [("rating", ratingMin.getD "" ++ "," ++ ratingMax.getD "")] else []) ++
    ((tags.filter fun value => Text.trim value ≠ "").map fun value => ("tags", value)).toList ++
    ((order.filter fun value => Text.trim value ≠ "").map fun value => ("order", value)).toList

theorem plainValue_of_notMem {v : String} (h : '&' ∉ v.toList) : PlainValue v := by
  intro a b hv
  exact absurd (hv ▸ List.mem_append_right a List.mem_cons_self) h

theorem plainValue_toString (n : Int64) : PlainValue (toString n) := by
  apply plainValue_of_notMem
  have hdigits : ∀ m : ℕ, '&' ∉ m.repr.toList := by
    intro m hm
    rw [Nat.repr, String.toList_ofList] at hm
    exact absurd (Nat.isDigit_of_mem_toDigits (by decide) (by decide) hm) (by decide)
  show '&' ∉ (Int.repr n.toInt).toList
  cases n.toInt with
  | ofNat m => exact hdigits m
  | negSucc m =>
    rw [Int.repr]
    simpa using hdigits (m + 1)

/-- What the user types decides: the request of the chart list is plain if the search text, the tags
    and the order are. -/
theorem chartListRequest_plain (page pageNum : Int64) (chartType : Option Int64)
    {search tags order ratingMin ratingMax : Option String}
    (hmin : ∀ v ∈ ratingMin, '&' ∉ v.toList) (hmax : ∀ v ∈ ratingMax, '&' ∉ v.toList)
    (hsearch : ∀ v ∈ search, PlainValue v) (htags : ∀ v ∈ tags, PlainValue v)
    (horder : ∀ v ∈ order, PlainValue v) :
    (chartListRequest page pageNum search chartType ratingMin ratingMax tags order).Plain := by
  have hrating : PlainValue (ratingMin.getD "" ++ "," ++ ratingMax.getD "") := by
    apply plainValue_of_notMem
    cases ratingMin <;> cases ratingMax <;> simp_all
  have hnames : ∀ name ∈ ["page", "pageNum", "search", "type", "rating", "tags", "order"],
      '=' ∉ name.toList ∧ '&' ∉ name.toList := by decide
  refine ⟨show '?' ∉ "chart".toList by decide, fun kv hkv => ?_⟩
  have hquery : kv.1 ∈ ["page", "pageNum", "search", "type", "rating", "tags", "order"] ∧
      PlainValue kv.2 := by
    simp only [chartListRequest, List.mem_append, Option.mem_toList, Option.map_eq_some_iff,
      Option.filter_eq_some_iff] at hkv
    rcases hkv with ((((hkv | ⟨v, hv, rfl⟩) | ⟨v, -, rfl⟩) | hkv) | ⟨v, hv, rfl⟩) | ⟨v, hv, rfl⟩
    · rcases List.mem_pair.mp hkv with rfl | rfl
      · exact ⟨by simp, plainValue_toString page⟩
      · exact ⟨by simp, plainValue_toString pageNum⟩
    · exact ⟨by simp, hsearch v hv⟩
    · exact ⟨by simp, plainValue_toString v⟩
    · split at hkv
      · obtain rfl := List.mem_singleton.mp hkv
        exact ⟨by simp, hrating⟩
      · cases hkv
    · exact ⟨by simp, htags v hv.1⟩
    · exact ⟨by simp, horder v hv.1⟩
  exact ⟨(hnames _ hquery.1).1, (hnames _ hquery.1).2, hquery.2⟩

end Ppb.Phira
