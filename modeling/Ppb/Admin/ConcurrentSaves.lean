import Ppb.Admin.FieldPermissions
import Ppb.Common.Histories

/-!
# Saves at the same time

`save` reads the file, merges, stores a snapshot and then renames a temporary file over the
configuration. There is no lock, and all saves use the same temporary file. A save that finds
another text when it renames than it has read undoes what was saved in between; and so does one
whose temporary file another save has renamed before it was written.

* `save_wp`: what a save has asked when it renames, and how it ends.
* `Undisturbed`: a rename finds the file as the save has read it, and its own text in the
  temporary file; and no text is written to a file that was renamed already.
* `saves_serializable`: then the file is what the successful saves, one after the other, make.
-/

namespace Ppb.Admin

open Prog Auth Shared Trace

/-- A call of `save`. -/
structure SaveRequest where
  auth : AuthPrincipal
  headers : Headers
  body : ConfigValuesBody
  deriving DecidableEq

def SaveRequest.program (x : Extern) (state : AdminState) (op : SaveRequest) : Handler Uuid :=
  save x state op.auth op.headers op.body

/-- Any number of saves in progress. -/
abbrev Saves := Logged Query Query.Answer Store SaveRequest

abbrev SaveLabel := Label Query Query.Answer SaveRequest

variable {x : Extern} {state : AdminState} {op : SaveRequest} {s s' : Store}
  {h h' : History Query Query.Answer} {e : Event Query Query.Answer}

/-! ## What a save has asked -/

def readText : Event Query Query.Answer → Option String
  | ⟨.readFile _, .ok text⟩ => some text
  | _ => none

/-- The texts that were read. -/
def readTexts (h : History Query Query.Answer) : List String := h.filterMap readText

def writtenText : Event Query Query.Answer → Option String
  | ⟨.write _ content, (.ok (), _)⟩ => some content
  | _ => none

/-- The texts that were written. -/
def writtenTexts (h : History Query Query.Answer) : List String := h.filterMap writtenText

/-- A question that reads or writes a text, or replaces the file. -/
def IsFile : Query → Prop
  | .readFile _ | .write .. | .rename => True
  | _ => False

theorem readTexts_snoc (he : ¬ IsFile e.1) : readTexts (h ++ [e]) = readTexts h := by
  rw [readTexts, List.filterMap_append]
  have hnone : readText e = none := by
    unfold readText
    split
    · exact absurd trivial he
    · rfl
  simp [hnone, readTexts]

theorem writtenTexts_snoc (he : ¬ IsFile e.1) : writtenTexts (h ++ [e]) = writtenTexts h := by
  rw [writtenTexts, List.filterMap_append]
  have hnone : writtenText e = none := by
    unfold writtenText
    split
    · exact absurd trivial he
    · rfl
  simp [hnone, writtenTexts]

/-- Before the rename: what was read and written so far. -/
structure Stage (h : History Query Query.Answer) (reads writes : List String) : Prop where
  read : readTexts h = reads
  written : writtenTexts h = writes
  early : ∀ e ∈ h, e.1 ≠ .rename ∧ e.1 ≠ .reload

theorem Stage.start : Stage [] [] [] := ⟨rfl, rfl, List.forall_mem_nil _⟩

theorem Stage.snoc {reads writes : List String} (hs : Stage h reads writes) (he : ¬ IsFile e.1)
    (hreload : e.1 ≠ .reload) : Stage (h ++ [e]) reads writes := by
  refine ⟨(readTexts_snoc he).trans hs.read, (writtenTexts_snoc he).trans hs.written, ?_⟩
  intro e' he'
  rcases List.mem_append.mp he' with he' | he'
  · exact hs.early e' he'
  · rw [List.mem_singleton.mp he']
    exact ⟨fun heq => he (by rw [heq]; trivial), hreload⟩

theorem Stage.extends {reads writes : List String} (hs : Stage h reads writes)
    (hx : Extends IsServer h h') : Stage h' reads writes := by
  obtain ⟨es, rfl, hes⟩ := hx
  induction es generalizing h with
  | nil => rwa [List.append_nil]
  | cons e es ih =>
    rw [List.forall_mem_cons] at hes
    rw [show h ++ e :: es = h ++ [e] ++ es by simp]
    have hserver : ∀ q, IsServer q → ¬ IsFile q ∧ q ≠ .reload := by
      intro q hq
      cases q with
      | server q => exact ⟨id, nofun⟩
      | _ => exact hq.elim
    exact ih (hs.snoc (hserver _ hes.1).1 (hserver _ hes.1).2) hes.2

theorem Stage.read_snoc {writes : List String} (hs : Stage h [] writes) (inode : ℕ)
    (text : String) : Stage (h ++ [⟨.readFile inode, .ok text⟩]) [text] writes := by
  refine ⟨?_, ?_, ?_⟩
  · rw [readTexts, List.filterMap_append, ← readTexts, hs.read]
    rfl
  · rw [writtenTexts, List.filterMap_append, ← writtenTexts, hs.written]
    exact List.append_nil _
  · intro e he
    rcases List.mem_append.mp he with he | he
    · exact hs.early e he
    · rw [List.mem_singleton.mp he]
      exact ⟨nofun, nofun⟩

theorem Stage.write_snoc {reads : List String} (hs : Stage h reads []) (inode : ℕ)
    (text : String) (left : Option String) :
    Stage (h ++ [⟨.write inode text, .ok (), left⟩]) reads [text] := by
  refine ⟨?_, ?_, ?_⟩
  · rw [readTexts, List.filterMap_append, ← readTexts, hs.read]
    exact List.append_nil _
  · rw [writtenTexts, List.filterMap_append, ← writtenTexts, hs.written]
    rfl
  · intro e he
    rcases List.mem_append.mp he with he | he
    · exact hs.early e he
    · rw [List.mem_singleton.mp he]
      exact ⟨nofun, nofun⟩

/-- The file was replaced. -/
def Renamed (h : History Query Query.Answer) : Prop := ⟨.rename, .ok ()⟩ ∈ h

/-- What a save asks after `h`: nothing of the files after the rename, and the rename with the
    merge of what it has read. -/
structure SaveAsks (x : Extern) (body : ConfigValuesBody) (h : History Query Query.Answer)
    (e : Event Query Query.Answer) : Prop where
  first : IsFile e.1 → ∀ e' ∈ h, e'.1 ≠ .rename ∧ e'.1 ≠ .reload
  merged : e.1 = .rename → ∃ prev text, readTexts h = [prev] ∧ writtenTexts h = [text] ∧
    mergeYamlPatch x prev body.values = .ok text

/-- It succeeds just when the file was replaced and PMP has loaded it. -/
def SaveEnds (h : History Query Query.Answer) (r : Except ApiError Uuid) : Prop :=
  (∃ id, r = .ok id) ↔ Renamed h ∧ ¬ ReloadFailed h

theorem SaveAsks.other {body : ConfigValuesBody} (he : ¬ IsFile e.1) : SaveAsks x body h e :=
  ⟨fun hfile => absurd hfile he, fun heq => absurd (by rw [heq]; trivial) he⟩

theorem Stage.asks {reads writes : List String} {body : ConfigValuesBody} (hs : Stage h reads writes)
    (he : e.1 ≠ .rename) : SaveAsks x body h e :=
  ⟨fun _ => hs.early, fun heq => absurd heq he⟩

theorem Stage.not_renamed {reads writes : List String} (hs : Stage h reads writes) : ¬ Renamed h :=
  fun hmem => (hs.early _ hmem).1 rfl

/-- An error before the rename. -/
theorem Stage.fails {reads writes : List String} (hs : Stage h reads writes) (err : ApiError) :
    SaveEnds h (.error err) :=
  ⟨nofun, fun hdone => absurd hdone.1 hs.not_renamed⟩

theorem wp_call {α : Type} {reads writes : List String} {body : ConfigValuesBody} (p : Server α)
    (hs : Stage h reads writes) :
    wp (SaveAsks x body) (call p) h fun h' _ => Stage h' reads writes := by
  refine wp_mono ((only_call p).wp_extends fun h' e hx he => ?_) fun h' r hx => hs.extends hx
  refine (hs.extends hx).asks fun heq => ?_
  rw [heq] at he
  exact he

/-- The end of a save. -/
theorem wp_saveReload {headers : Headers} {body : ConfigValuesBody} {snapshotId : Uuid}
    (hrenamed : Renamed h) (hearly : ∀ e ∈ h, e.1 ≠ .reload) :
    wp (SaveAsks x body) (saveReload headers body snapshotId) h SaveEnds := by
  have hno : ¬ ReloadFailed h := fun ⟨_, he⟩ => hearly _ he rfl
  refine wp_ask (fun a => .other id) fun reloaded => ?_
  cases reloaded with
  | error err =>
    have hfailed : ReloadFailed (h ++ [⟨.reload, .error err⟩]) := ⟨err, by simp⟩
    exact ⟨nofun, fun hdone => absurd hfailed hdone.2⟩
  | ok v =>
    have hno₁ : ¬ ReloadFailed (h ++ [⟨.reload, .ok v⟩]) := not_reloadFailed_snoc hno (by simp)
    refine wp_ask (fun a => .other id) fun audited => ?_
    refine ⟨fun _ => ⟨?_, not_reloadFailed_snoc hno₁ (by simp)⟩, fun _ => ⟨_, rfl⟩⟩
    exact List.mem_append_left _ (List.mem_append_left _ hrenamed)

theorem wp_saveOver {auth : AuthPrincipal} {headers : Headers} {body : ConfigValuesBody}
    {prev : String} (hs : Stage h [prev] []) :
    wp (SaveAsks x body) (saveOver x state auth headers body prev) h SaveEnds := by
  unfold saveOver
  cases hmerged : mergeYamlPatch x prev body.values with
  | error err => exact hs.fails err
  | ok text =>
    show wp _ (ofExcept (orInvalid _ (x.parse text)) >>= _) _ _
    cases orInvalid "merged YAML invalid" (x.parse text) with
    | error err => exact hs.fails err
    | ok y =>
      show wp _ (call state.app.requireDb >>= _) _ _
      refine wp_bind (wp_call _ hs) ?_ fun h' err hs' => hs'.fails err
      rintro h₁ ⟨⟩ hs₁
      refine wp_ask (fun a => hs₁.asks nofun) fun row => ?_
      have hs₂ := hs₁.snoc (e := ⟨.insertSnapshot "pmp" prev ("pre-save: " ++ body.note)
        (some auth.sub), row⟩) id nofun
      cases row with
      | error err => exact hs₂.fails _
      | ok row =>
        show wp _ (writeYamlAtomic state text >>= fun _ => saveReload headers body row.1) _ _
        unfold writeYamlAtomic failIf
        split_ifs with hconfigured
        · exact hs₂.fails _
        · refine fun created => ⟨hs₂.asks nofun, ?_⟩
          have hs₃ := hs₂.snoc (e := ⟨.createTmp, created⟩) id nofun
          cases created with
          | error u => exact hs₃.fails _
          | ok inode =>
            rintro ⟨written, left⟩
            refine ⟨hs₃.asks nofun, ?_⟩
            cases written with
            | error u => exact ⟨nofun, fun hdone => absurd hdone.1 (by
                simpa [Renamed] using hs₃.not_renamed)⟩
            | ok u =>
              have hs₄ := hs₃.write_snoc inode text left
              refine fun renamed => ⟨⟨fun _ => hs₄.early, fun _ => ⟨prev, text, hs₄.read,
                hs₄.written, hmerged⟩⟩, ?_⟩
              cases renamed with
              | error u => exact ⟨nofun, fun hdone => absurd hdone.1 (by
                  simpa [Renamed] using hs₄.not_renamed)⟩
              | ok u =>
                refine wp_saveReload (List.mem_append_right _ (List.mem_singleton_self _)) ?_
                intro e he
                rcases List.mem_append.mp he with he | he
                · exact (hs₄.early e he).2
                · rw [List.mem_singleton.mp he]
                  exact nofun

theorem wp_saveGuard {auth : AuthPrincipal} {headers : Headers} {body : ConfigValuesBody}
    (hs : Stage h [] []) :
    wp (SaveAsks x body) (saveGuard state auth headers body) h fun h' _ => Stage h' [] [] := by
  refine wp_bind (wp_call _ hs) ?_ fun _ _ hs' => hs'
  intro h₁ _ hs₁
  refine wp_bind (wp_call _ hs₁) ?_ fun _ _ hs' => hs'
  intro h₂ _ hs₂
  cases checkValues body.values with
  | error err => exact hs₂
  | ok u => exact wp_failIf (fun _ => hs₂) fun _ => hs₂

/-- What a save asks, and how it ends. -/
theorem save_wp (x : Extern) (state : AdminState) (op : SaveRequest) :
    wp (SaveAsks x op.body) (op.program x state) [] SaveEnds := by
  refine wp_bind (wp_saveGuard .start) ?_ fun _ err hs => hs.fails err
  intro h₁ _ hs₁
  show wp _ (readYaml state >>= fun prev => saveOver x state op.auth op.headers op.body prev) _ _
  unfold readYaml failIf
  split_ifs with hconfigured
  · exact hs₁.fails _
  · refine fun opened => ⟨hs₁.asks nofun, ?_⟩
    have hs₂ := hs₁.snoc (e := ⟨.openFile, opened⟩) id nofun
    cases opened with
    | error u => exact hs₂.fails _
    | ok inode =>
      refine fun text => ⟨hs₂.asks nofun, ?_⟩
      cases text with
      | error u => exact ⟨nofun, fun hdone => absurd hdone.1 (by
          simpa [Renamed] using hs₂.not_renamed)⟩
      | ok prev => exact wp_saveOver (hs₂.read_snoc inode prev)

/-! ## Turns -/

/-- A save renames while the file is what it has read and the temporary file what it has
    written. None writes to the file that is the configuration by now, unless the text stays. And
    if PMP does not load the text of a save, that is the one it has read. -/
def Undisturbed (p : Saves) : SaveLabel → Prop
  | .answer i ⟨.rename, .ok ()⟩ => ∀ t ∈ p.threads[i]?,
    p.store.file = (readTexts t.2).getLast? ∧ p.store.tmp = some (writtenTexts t.2).getLast?
  | .answer _ ⟨.write inode _, a⟩ => inode = p.store.inode → a.2 = p.store.file
  | .answer i ⟨.reload, .error _⟩ => ∀ t ∈ p.threads[i]?, readTexts t.2 = writtenTexts t.2
  | _ => True

/-- The turn of a save: it has replaced `prev` by `text`. -/
structure Turn where
  index : ℕ
  request : SaveRequest
  prev : String
  text : String

/-- Each turn takes over the text of the one before. -/
def Linked : Option String → List Turn → Option String → Prop
  | file, [], file' => file' = file
  | file, t :: ts, file' => file = some t.prev ∧ Linked (some t.text) ts file'

theorem Linked.snoc {ts : List Turn} {t : Turn} :
    ∀ {file : Option String}, Linked file ts (some t.prev) →
      Linked file (ts ++ [t]) (some t.text) := by
  induction ts with
  | nil => exact fun h => ⟨h.symm, rfl⟩
  | cons t' ts ih => exact fun h => ⟨h.1, ih h.2⟩

/-- Turns that change nothing can be left out. -/
theorem Linked.filter {file' : Option String} {keep : Turn → Bool} {ts : List Turn} :
    ∀ {file : Option String}, Linked file ts file' →
      (∀ t ∈ ts, keep t = false → t.prev = t.text) → Linked file (ts.filter keep) file' := by
  induction ts with
  | nil => exact fun h _ => h
  | cons t ts ih =>
    intro file h hkeep
    rw [List.forall_mem_cons] at hkeep
    cases ht : keep t with
    | true =>
      rw [List.filter_cons_of_pos ht]
      exact ⟨h.1, ih h.2 hkeep.2⟩
    | false =>
      rw [List.filter_cons_of_neg (by simp [ht]), h.1, hkeep.1 ht]
      exact ih h.2 hkeep.2

/-- The turns of the saves so far. -/
structure Serial (x : Extern) (s₀ : Store) (p : Saves) (turns : List Turn) : Prop where
  linked : Linked s₀.file turns p.store.file
  merged : ∀ t ∈ turns, mergeYamlPatch x t.prev t.request.body.values = .ok t.text
  nodup : (turns.map Turn.index).Nodup
  taken : ∀ t ∈ turns, ∃ past, p.threads[t.index]? = some (t.request, past) ∧
    readTexts past = [t.prev] ∧ writtenTexts past = [t.text] ∧ Renamed past
  all : ∀ (i : ℕ) (op : SaveRequest) (past : History Query Query.Answer),
    p.threads[i]? = some (op, past) → Renamed past → ∃ t ∈ turns, t.index = i
  unchanged : ∀ (i : ℕ) (op : SaveRequest) (past : History Query Query.Answer),
    p.threads[i]? = some (op, past) → ReloadFailed past → readTexts past = writtenTexts past

theorem Serial.start (s₀ : Store) : Serial x s₀ ⟨s₀, []⟩ [] where
  linked := rfl
  merged := nofun
  nodup := List.nodup_nil
  taken := nofun
  all := by simp
  unchanged := by simp

theorem Serial.spawn {s₀ : Store} {p : Saves} {turns : List Turn} (hp : Serial x s₀ p turns)
    (op : SaveRequest) :
    Serial x s₀ { p with threads := p.threads ++ [(op, [])] } turns where
  linked := hp.linked
  merged := hp.merged
  nodup := hp.nodup
  taken := by
    intro t ht
    obtain ⟨past, hi, hpast⟩ := hp.taken t ht
    refine ⟨past, ?_, hpast⟩
    have hlt := (List.getElem?_eq_some_iff.mp hi).1
    rw [Logged.getElem?_spawn, if_neg (by omega), hi]
  all := by
    intro i op' past hi hrenamed
    rw [Logged.getElem?_spawn] at hi
    split_ifs at hi
    · obtain ⟨rfl, rfl⟩ := Prod.mk.inj (Option.some.inj hi)
      cases hrenamed
    · exact hp.all i op' past hi hrenamed
  unchanged := by
    intro i op' past hi hfailed
    rw [Logged.getElem?_spawn] at hi
    split_ifs at hi
    · obtain ⟨rfl, rfl⟩ := Prod.mk.inj (Option.some.inj hi)
      rfl
    · exact hp.unchanged i op' past hi hfailed

/-- What the next answer leaves of the texts of a save that has renamed or was told to reload. -/
theorem texts_snoc {body : ConfigValuesBody} (hasks : SaveAsks x body h e)
    (hlate : ∃ e' ∈ h, e'.1 = .rename ∨ e'.1 = .reload) :
    readTexts (h ++ [e]) = readTexts h ∧ writtenTexts (h ++ [e]) = writtenTexts h := by
  have hfile : ¬ IsFile e.1 := by
    intro hfile
    obtain ⟨e', he', hq⟩ := hlate
    obtain ⟨hrename, hreload⟩ := hasks.first hfile e' he'
    exact hq.elim hrename hreload
  exact ⟨readTexts_snoc hfile, writtenTexts_snoc hfile⟩

/-- The turn of the save that renames. -/
theorem Serial.turn {s₀ : Store} {p p' : Saves} {turns : List Turn} (hp : Serial x s₀ p turns)
    {i : ℕ} {op : SaveRequest} {past : History Query Query.Answer}
    (hi : p.threads[i]? = some (op, past)) (hasks : SaveAsks x op.body past ⟨.rename, .ok ()⟩)
    (hok : Undisturbed p (.answer i ⟨.rename, .ok ()⟩))
    (hexec : exec p.store ⟨.rename, .ok ()⟩ = some p'.store)
    (hset : p'.threads = p.threads.set i (op, past ++ [⟨.rename, .ok ()⟩])) :
    ∃ turns', Serial x s₀ p' turns' := by
  obtain ⟨prev, text, hread, hwritten, hmerged⟩ := hasks.merged rfl
  obtain ⟨hfile, htmp⟩ := hok _ hi
  rw [hread, List.getLast?_singleton] at hfile
  rw [hwritten, List.getLast?_singleton] at htmp
  have hfile' : p'.store.file = some text := by
    obtain ⟨text', htext, hstore⟩ := Option.map_eq_some_iff.mp hexec
    rw [← hstore, ← Option.some.inj (htmp.symm.trans htext)]
  have hnew : ¬ Renamed past := fun hmem => (hasks.first trivial _ hmem).1 rfl
  have hfresh : ∀ t ∈ turns, t.index ≠ i := by
    intro t ht heq
    obtain ⟨past', hi', -, -, hrenamed⟩ := hp.taken t ht
    rw [heq, hi] at hi'
    obtain ⟨-, rfl⟩ := Prod.mk.inj (Option.some.inj hi')
    exact hnew hrenamed
  refine ⟨turns ++ [⟨i, op, prev, text⟩], ?_, ?_, ?_, ?_, ?_, ?_⟩
  · rw [hfile']
    exact Linked.snoc (t := ⟨i, op, prev, text⟩) (hfile ▸ hp.linked)
  · intro t ht
    rcases List.mem_append.mp ht with ht | ht
    · exact hp.merged t ht
    · rw [List.mem_singleton.mp ht]
      exact hmerged
  · rw [List.map_append, List.nodup_append]
    refine ⟨hp.nodup, List.nodup_singleton _, fun j hj k hk => ?_⟩
    obtain ⟨t, ht, rfl⟩ := List.mem_map.mp hj
    rw [List.mem_singleton.mp hk]
    exact hfresh t ht
  · intro t ht
    rcases List.mem_append.mp ht with ht | ht
    · obtain ⟨past', hi', hpast'⟩ := hp.taken t ht
      refine ⟨past', ?_, hpast'⟩
      rw [Logged.getElem?_set hi hset, if_neg (hfresh t ht), hi']
    · rw [List.mem_singleton.mp ht]
      refine ⟨past ++ [⟨.rename, .ok ()⟩], by rw [Logged.getElem?_set hi hset, if_pos rfl], ?_, ?_, ?_⟩
      · rw [readTexts, List.filterMap_append, ← readTexts, hread]
        rfl
      · rw [writtenTexts, List.filterMap_append, ← writtenTexts, hwritten]
        rfl
      · exact List.mem_append_right _ (List.mem_singleton_self _)
  · intro j op' past' hj hrenamed
    rw [Logged.getElem?_set hi hset] at hj
    split_ifs at hj with hji
    · exact ⟨_, List.mem_append_right _ (List.mem_singleton_self _), hji.symm⟩
    · obtain ⟨t, ht, hindex⟩ := hp.all j op' past' hj hrenamed
      exact ⟨t, List.mem_append_left _ ht, hindex⟩
  · intro j op' past' hj hfailed
    rw [Logged.getElem?_set hi hset] at hj
    split_ifs at hj with hji
    · obtain ⟨rfl, rfl⟩ := Prod.mk.inj (Option.some.inj hj)
      obtain ⟨err, hmem⟩ := hfailed
      rcases List.mem_append.mp hmem with hmem | hmem
      · exact absurd rfl (hasks.first trivial _ hmem).2
      · cases List.mem_singleton.mp hmem
    · exact hp.unchanged j op' past' hj hfailed

/-- Any other answer. -/
theorem Serial.answer {s₀ : Store} {p p' : Saves} {turns : List Turn} (hp : Serial x s₀ p turns)
    {i : ℕ} {op : SaveRequest} {past : History Query Query.Answer}
    (hi : p.threads[i]? = some (op, past)) (hasks : SaveAsks x op.body past e)
    (hok : Undisturbed p (.answer i e)) (hfile : p'.store.file = p.store.file)
    (hno : e ≠ ⟨.rename, .ok ()⟩) (hset : p'.threads = p.threads.set i (op, past ++ [e])) :
    Serial x s₀ p' turns where
  linked := hfile ▸ hp.linked
  merged := hp.merged
  nodup := hp.nodup
  taken := by
    intro t ht
    obtain ⟨past', hi', hread, hwritten, hrenamed⟩ := hp.taken t ht
    rw [Logged.getElem?_set hi hset]
    split_ifs with hti
    · rw [hti, hi] at hi'
      obtain ⟨rfl, rfl⟩ := Prod.mk.inj (Option.some.inj hi')
      obtain ⟨hread', hwritten'⟩ := texts_snoc hasks ⟨_, hrenamed, .inl rfl⟩
      exact ⟨_, rfl, hread'.trans hread, hwritten'.trans hwritten, List.mem_append_left _ hrenamed⟩
    · exact ⟨past', hi', hread, hwritten, hrenamed⟩
  all := by
    intro j op' past' hj hrenamed
    rw [Logged.getElem?_set hi hset] at hj
    split_ifs at hj with hji
    · obtain ⟨rfl, rfl⟩ := Prod.mk.inj (Option.some.inj hj)
      rcases List.mem_append.mp hrenamed with hmem | hmem
      · rw [hji]
        exact hp.all i _ past hi hmem
      · exact absurd (List.mem_singleton.mp hmem).symm hno
    · exact hp.all j op' past' hj hrenamed
  unchanged := by
    intro j op' past' hj hfailed
    rw [Logged.getElem?_set hi hset] at hj
    split_ifs at hj with hji
    · obtain ⟨rfl, rfl⟩ := Prod.mk.inj (Option.some.inj hj)
      obtain ⟨err, hmem⟩ := hfailed
      rcases List.mem_append.mp hmem with hmem | hmem
      · obtain ⟨hread', hwritten'⟩ := texts_snoc hasks ⟨_, hmem, .inr rfl⟩
        rw [hread', hwritten']
        exact hp.unchanged i _ past hi ⟨err, hmem⟩
      · obtain rfl := List.mem_singleton.mp hmem
        rw [readTexts_snoc id, writtenTexts_snoc id]
        exact hok _ hi
    · exact hp.unchanged j op' past' hj hfailed

theorem serial_step {s₀ : Store} {p p' : Saves} {l : SaveLabel}
    (hp : ∃ turns, Serial x s₀ p turns) (hok : Undisturbed p l)
    (hstep : p.step exec (SaveRequest.program x state) l = some p') :
    ∃ turns, Serial x s₀ p' turns := by
  obtain ⟨turns, hp⟩ := hp
  cases l with
  | spawn op =>
    obtain rfl := Option.some.inj hstep
    exact ⟨turns, hp.spawn op⟩
  | answer i e =>
    obtain ⟨op, past, rest, hi, hfollow, hexec, hset⟩ := Logged.step_answer hstep
    have hasks := ok_of_follow_snoc (save_wp x state op) hfollow
    by_cases hrename : e = ⟨.rename, .ok ()⟩
    · subst hrename
      exact hp.turn hi hasks hok hexec hset
    · have hfile : p'.store.file = p.store.file := by
        rcases exec_file hexec with hfile | hrenamed | ⟨content, a, rfl, hleft⟩
        · exact hfile
        · exact absurd hrenamed hrename
        · exact hleft.trans (hok rfl)
      exact ⟨turns, hp.answer hi hasks hok hfile hrename hset⟩

theorem serial_run {s₀ : Store} {p : Saves}
    (hrun : Reaches (Logged.step exec (SaveRequest.program x state)) Undisturbed ⟨s₀, []⟩ p) :
    ∃ turns, Serial x s₀ p turns :=
  hrun.invariant (I := fun p => ∃ turns, Serial x s₀ p turns) ⟨[], Serial.start s₀⟩
    fun _ _ _ hp hok hstep => serial_step hp hok hstep

/-! ## One after the other -/

/-- The file after the saves of these values, one after the other. -/
def sequentialFile (x : Extern) : Option String → List Json → Option String
  | file, [] => file
  | file, values :: rest =>
    sequentialFile x (file.bind fun text => (mergeYamlPatch x text values).toOption) rest

/-- Saves that run one after the other, and all succeed. -/
inductive Sequential (x : Extern) (state : AdminState) : Store → List SaveRequest → Store → Prop
  | nil {s : Store} : Sequential x state s [] s
  | cons {s s₁ s' : Store} {op : SaveRequest} {ops : List SaveRequest}
      {h : History Query Query.Answer} {id : Uuid} :
      SaveRun x state op.auth op.headers op.body s h s₁ (.ok id) → Sequential x state s₁ ops s' →
      Sequential x state s (op :: ops) s'

/-- Their file is the one of `sequentialFile`. -/
theorem Sequential.file {ops : List SaveRequest} (hrun : Sequential x state s ops s') :
    s'.file = sequentialFile x s.file (ops.map (·.body.values)) := by
  induction hrun with
  | nil => rfl
  | @cons s s₁ s' op ops h id hsave _ ih =>
    cases hsave.outcome with
    | saved prev text _ hreplaced _ _ =>
      rw [ih, List.map_cons, sequentialFile, hreplaced.file, hreplaced.read, Option.bind_some,
        hreplaced.merged]
      rfl

theorem Linked.sequentialFile {file' : Option String} {turns : List Turn} :
    ∀ {file : Option String}, Linked file turns file' →
      (∀ t ∈ turns, mergeYamlPatch x t.prev t.request.body.values = .ok t.text) →
      sequentialFile x file (turns.map (·.request.body.values)) = file' := by
  induction turns with
  | nil => exact fun h _ => h.symm
  | cons t ts ih =>
    intro file h hmerged
    rw [List.forall_mem_cons] at hmerged
    rw [List.map_cons, Admin.sequentialFile, h.1, Option.bind_some, hmerged.1]
    exact ih h.2 hmerged.2

/-! ## What the fields are -/

/-- The value at a path of a text. -/
def valueAt (x : Extern) (text : String) (path : List String) : Option Yaml :=
  match x.parse text with
  | .ok root => root.getPath path
  | .error _ => none

/-- The request sets the field `f` to `v`. -/
def SaveRequest.Submits (op : SaveRequest) (f : ConfigFieldDescriptor) (v : Json) : Prop :=
  ∃ values, op.body.values.asObject = some values ∧ f.submitted values = some v

variable {a b : String} {f : ConfigFieldDescriptor} {path : List String}

/-- A field that the request sets, after the merge. -/
theorem fieldValue_of_submits (hround : x.RoundTrips)
    (hmerged : mergeYamlPatch x a op.body.values = .ok b) (hf : f ∈ pmpConfigDescriptor) {v : Json}
    (hv : op.Submits f v) : fieldValue x b f = some (jsonToYaml x v) := by
  obtain ⟨values, hvalues, hsubmitted⟩ := hv
  rw [fieldValue_merge hround hmerged hvalues hf, hsubmitted]

theorem fieldValue_of_not_submits (hround : x.RoundTrips)
    (hmerged : mergeYamlPatch x a op.body.values = .ok b) (hf : f ∈ pmpConfigDescriptor)
    (hno : ∀ v, ¬ op.Submits f v) : fieldValue x b f = fieldValue x a f := by
  obtain ⟨root, values, root', -, hvalues, -, -⟩ := mergeYamlPatch_cases hmerged
  rw [fieldValue_merge hround hmerged hvalues hf]
  cases hv : f.submitted values with
  | some v => exact absurd ⟨values, hvalues, hv⟩ (hno v)
  | none => rfl

/-- What lies apart from what the request sets. -/
theorem valueAt_merge (hround : x.RoundTrips)
    (hmerged : mergeYamlPatch x a op.body.values = .ok b)
    (hapart : ∀ f ∈ pmpConfigDescriptor, ∀ v, op.Submits f v → Apart f.parts path) :
    valueAt x b path = valueAt x a path := by
  obtain ⟨root, values, root', hparse, hvalues, hmerge, hrender⟩ := mergeYamlPatch_cases hmerged
  unfold valueAt
  rw [hround root' b hrender, hparse]
  refine getPath_mergeInto_of_apart hmerge fun f hf hsome => ?_
  obtain ⟨v, hv⟩ := Option.isSome_iff_exists.mp hsome
  exact hapart f hf v ⟨values, hvalues, hv⟩

/-- A field that no turn sets. -/
theorem Linked.fieldValue {turns : List Turn} (hround : x.RoundTrips) (hf : f ∈ pmpConfigDescriptor) :
    ∀ {a : String}, Linked (some a) turns (some b) →
      (∀ t ∈ turns, mergeYamlPatch x t.prev t.request.body.values = .ok t.text) →
      (∀ t ∈ turns, ∀ v, ¬ t.request.Submits f v) →
      Admin.fieldValue x b f = Admin.fieldValue x a f := by
  induction turns with
  | nil =>
    intro a h _ _
    rw [Option.some.inj h]
  | cons t ts ih =>
    intro a h hmerged hno
    rw [List.forall_mem_cons] at hmerged hno
    rw [ih h.2 hmerged.2 hno.2, fieldValue_of_not_submits hround hmerged.1 hf hno.1,
      Option.some.inj h.1]

/-- A field that one turn sets. -/
theorem Linked.carried {turns : List Turn} (hround : x.RoundTrips) (hf : f ∈ pmpConfigDescriptor)
    {t : Turn} {v : Json} (hv : t.request.Submits f v) :
    ∀ {a : String}, Linked (some a) turns (some b) →
      (∀ t ∈ turns, mergeYamlPatch x t.prev t.request.body.values = .ok t.text) →
      (turns.map Turn.index).Nodup → t ∈ turns →
      (∀ t' ∈ turns, t'.index ≠ t.index → ∀ v, ¬ t'.request.Submits f v) →
      Admin.fieldValue x b f = some (jsonToYaml x v) := by
  induction turns with
  | nil => exact fun _ _ _ ht => nomatch ht
  | cons t' ts ih =>
    intro a h hmerged hnodup ht hno
    rw [List.forall_mem_cons] at hmerged hno
    rw [List.map_cons, List.nodup_cons] at hnodup
    rcases List.mem_cons.mp ht with rfl | ht
    · have hrest : ∀ t' ∈ ts, ∀ v, ¬ t'.request.Submits f v := by
        intro t' ht'
        refine hno.2 t' ht' fun heq => hnodup.1 ?_
        rw [← heq]
        exact List.mem_map_of_mem ht'
      rw [h.2.fieldValue hround hf hmerged.2 hrest, fieldValue_of_submits hround hmerged.1 hf hv]
    · exact ih h.2 hmerged.2 hnodup.2 ht hno.2

/-- What lies apart from all turns. -/
theorem Linked.valueAt {turns : List Turn} (hround : x.RoundTrips) :
    ∀ {a : String}, Linked (some a) turns (some b) →
      (∀ t ∈ turns, mergeYamlPatch x t.prev t.request.body.values = .ok t.text) →
      (∀ t ∈ turns, ∀ f ∈ pmpConfigDescriptor, ∀ v, t.request.Submits f v → Apart f.parts path) →
      Admin.valueAt x b path = Admin.valueAt x a path := by
  induction turns with
  | nil =>
    intro a h _ _
    rw [Option.some.inj h]
  | cons t ts ih =>
    intro a h hmerged hapart
    rw [List.forall_mem_cons] at hmerged hapart
    rw [ih h.2 hmerged.2 hapart.2, valueAt_merge hround hmerged.1 hapart.1, Option.some.inj h.1]

/-- With a file at the start there is one at the end. -/
theorem Linked.exists_file {turns : List Turn} {file' : Option String} :
    ∀ {a : String}, Linked (some a) turns file' → ∃ b, file' = some b := by
  induction turns with
  | nil => exact fun h => ⟨_, h⟩
  | cons t ts ih => exact fun h => ih h.2

/-! ## Every interleaving -/

/-- The save number `i` is for the request `op` and has succeeded. -/
def Succeeded (x : Extern) (state : AdminState) (p : Saves) (i : ℕ) (op : SaveRequest) : Prop :=
  ∃ past id, p.threads[i]? = some (op, past) ∧ (op.program x state).Ends past (.ok id)

/-- The file is what the saves that have succeeded make of it, one after the other: none of their
    values is lost, and everything else is as before. -/
structure Serializable (x : Extern) (state : AdminState) (s₀ : Store) (p : Saves) : Prop where
  sequential : ∃ order : List (ℕ × SaveRequest), (order.map Prod.fst).Nodup ∧
    (∀ i op, (i, op) ∈ order ↔ Succeeded x state p i op) ∧
    sequentialFile x s₀.file (order.map (·.2.body.values)) = p.store.file ∧
    ∀ s', Sequential x state s₀ (order.map Prod.snd) s' → s'.file = p.store.file
  carried : ∀ i op, Succeeded x state p i op → ∀ f ∈ pmpConfigDescriptor, ∀ v, op.Submits f v →
    (∀ j op', Succeeded x state p j op' → j ≠ i → ∀ v', ¬ op'.Submits f v') →
    ∃ final, p.store.file = some final ∧ fieldValue x final f = some (jsonToYaml x v)
  others : ∀ initial, s₀.file = some initial → ∃ final, p.store.file = some final ∧
    ∀ path, (∀ i op, Succeeded x state p i op → ∀ f ∈ pmpConfigDescriptor, ∀ v, op.Submits f v →
      Apart f.parts path) → valueAt x final path = valueAt x initial path

/-- The turns of the saves that have succeeded. -/
theorem Serial.succeeded {s₀ : Store} {p : Saves} {turns : List Turn} (hp : Serial x s₀ p turns)
    (hended : ∀ t ∈ p.threads, ∃ r, (t.1.program x state).Ends t.2 r) :
    ∃ kept : List Turn, Linked s₀.file kept p.store.file ∧
      (∀ t ∈ kept, mergeYamlPatch x t.prev t.request.body.values = .ok t.text) ∧
      (kept.map Turn.index).Nodup ∧
      ∀ i op, (∃ t ∈ kept, t.index = i ∧ t.request = op) ↔ Succeeded x state p i op := by
  classical
  let keep : Turn → Bool := fun t => decide (Succeeded x state p t.index t.request)
  have hkeep : ∀ t, keep t = true ↔ Succeeded x state p t.index t.request := fun t => decide_eq_true_iff
  refine ⟨turns.filter keep, hp.linked.filter ?_, fun t ht => hp.merged t (List.mem_filter.mp ht).1,
    hp.nodup.sublist (List.filter_sublist.map _), fun i op => ⟨?_, ?_⟩⟩
  · -- a save that has failed after its rename was told so by PMP, and has changed nothing
    intro t ht hfailed
    obtain ⟨past, hi, hread, hwritten, hrenamed⟩ := hp.taken t ht
    obtain ⟨r, hends⟩ := hended _ (List.mem_of_getElem? hi)
    have hend : SaveEnds past r := of_ends (save_wp x state t.request) hends
    have hreload : ReloadFailed past := by
      by_contra hno
      obtain ⟨id, rfl⟩ := hend.mpr ⟨hrenamed, hno⟩
      have hsucceeded := (hkeep t).mpr ⟨past, id, hi, hends⟩
      rw [hfailed] at hsucceeded
      cases hsucceeded
    have htexts := hp.unchanged _ _ _ hi hreload
    rw [hread, hwritten] at htexts
    exact List.singleton_inj.mp htexts
  · rintro ⟨t, ht, rfl, rfl⟩
    exact (hkeep t).mp (List.mem_filter.mp ht).2
  · intro hsucceeded
    obtain ⟨past, id, hi, hends⟩ := hsucceeded
    have hend : SaveEnds past (.ok id) := of_ends (save_wp x state op) hends
    obtain ⟨t, ht, hindex⟩ := hp.all i op past hi (hend.mp ⟨id, rfl⟩).1
    obtain ⟨past', hi', -⟩ := hp.taken t ht
    rw [hindex, hi] at hi'
    obtain ⟨hrequest, -⟩ := Prod.mk.inj (Option.some.inj hi')
    refine ⟨t, List.mem_filter.mpr ⟨ht, (hkeep t).mpr ?_⟩, hindex, hrequest.symm⟩
    rw [hindex, ← hrequest]
    exact ⟨past, id, hi, hends⟩

theorem Linked.exists_start {turns : List Turn} {file file' : Option String} {t : Turn}
    (h : Linked file turns file') (ht : t ∈ turns) : ∃ a, file = some a := by
  cases turns with
  | nil => cases ht
  | cons t' ts => exact ⟨_, h.1⟩

/-- In every interleaving of any number of saves in which no save disturbs another, once all have
    ended the file is that of the successful ones in some order. -/
theorem saves_serializable (x : Extern) (state : AdminState) (s₀ : Store) (p : Saves)
    (hround : x.RoundTrips)
    (hrun : Reaches (Logged.step exec (SaveRequest.program x state)) Undisturbed ⟨s₀, []⟩ p)
    (hended : ∀ t ∈ p.threads, ∃ r, (t.1.program x state).Ends t.2 r) :
    Serializable x state s₀ p := by
  obtain ⟨turns, hserial⟩ := serial_run hrun
  obtain ⟨kept, hlinked, hmerged, hnodup, hsucceeded⟩ := hserial.succeeded hended
  refine ⟨⟨kept.map fun t => (t.index, t.request), ?_, ?_, ?_, ?_⟩, ?_, ?_⟩
  · rw [List.map_map]
    exact hnodup
  · intro i op
    rw [← hsucceeded i op]
    simp [Prod.ext_iff]
  · rw [List.map_map]
    exact hlinked.sequentialFile hmerged
  · intro s' hsequential
    rw [hsequential.file, List.map_map, List.map_map]
    exact hlinked.sequentialFile hmerged
  · intro i op hi f hf v hv hothers
    obtain ⟨t, ht, rfl, rfl⟩ := (hsucceeded i op).mpr hi
    obtain ⟨a, ha⟩ := hlinked.exists_start ht
    rw [ha] at hlinked
    obtain ⟨b, hb⟩ := hlinked.exists_file
    rw [hb] at hlinked
    refine ⟨b, hb, hlinked.carried hround hf hv hmerged hnodup ht fun t' ht' hne => ?_⟩
    exact hothers _ _ ((hsucceeded _ _).mp ⟨t', ht', rfl, rfl⟩) hne
  · intro initial hinitial
    rw [hinitial] at hlinked
    obtain ⟨b, hb⟩ := hlinked.exists_file
    rw [hb] at hlinked
    refine ⟨b, hb, fun path hapart => hlinked.valueAt hround hmerged fun t ht => ?_⟩
    exact hapart _ _ ((hsucceeded _ _).mp ⟨t, ht, rfl, rfl⟩)

/-! ### One after the other, and both at once -/

/-- Two saves of the user 1. -/
def savePort : SaveRequest := ⟨sampleAuth, sampleHeaders, samplePort⟩

def saveName : SaveRequest := ⟨sampleAuth, sampleHeaders, sampleName⟩

/-- The answers to the save number `i`. -/
def answers (i : ℕ) (h : History Query Query.Answer) : List SaveLabel := h.map (.answer i)

/-- `Undisturbed`, as a test; it passes no reload that fails. -/
def isUndisturbed (p : Saves) : SaveLabel → Bool
  | .answer i ⟨.rename, .ok ()⟩ => (p.threads[i]?).all fun t =>
    p.store.file == (readTexts t.2).getLast? && p.store.tmp == some (writtenTexts t.2).getLast?
  | .answer _ ⟨.write inode _, a⟩ => inode != p.store.inode || a.2 == p.store.file
  | .answer _ ⟨.reload, .error _⟩ => false
  | _ => true

theorem undisturbed_of_test {p : Saves} {l : SaveLabel} (hl : isUndisturbed p l = true) :
    Undisturbed p l := by
  unfold Undisturbed
  split
  · intro t ht
    have htest : ((p.threads[_]?).all _) = true := hl
    rw [ht] at htest
    simpa using htest
  · intro hinode
    simpa [isUndisturbed, hinode] using hl
  · cases hl
  · trivial

/-- The numbers 0 and 1 have ended well. -/
def bothSaved (p : Saves) : Bool :=
  decide (p.threads.length = 2) &&
  ((p.threads[0]?).any fun t =>
    decide (t.1 = savePort) && decide ((t.1.program sampleExtern sampleState).Ends t.2 (.ok 51))) &&
  ((p.threads[1]?).any fun t =>
    decide (t.1 = saveName) && decide ((t.1.program sampleExtern sampleState).Ends t.2 (.ok 52)))

theorem succeeded_of_bothSaved {p : Saves} (hp : bothSaved p = true) :
    p.threads.length = 2 ∧ Succeeded sampleExtern sampleState p 0 savePort ∧
      Succeeded sampleExtern sampleState p 1 saveName := by
  simp only [bothSaved, Bool.and_eq_true, decide_eq_true_eq] at hp
  obtain ⟨⟨hlength, h₀⟩, h₁⟩ := hp
  obtain ⟨⟨op₀, past₀⟩, hi₀, ht₀⟩ := (Option.any_eq_true _ _).mp h₀
  obtain ⟨⟨op₁, past₁⟩, hi₁, ht₁⟩ := (Option.any_eq_true _ _).mp h₁
  simp only [Bool.and_eq_true, decide_eq_true_eq] at ht₀ ht₁
  obtain ⟨rfl, hends₀⟩ := ht₀
  obtain ⟨rfl, hends₁⟩ := ht₁
  exact ⟨hlength, ⟨past₀, 51, hi₀, hends₀⟩, ⟨past₁, 52, hi₁, hends₁⟩⟩

/-- The second save reads the file after the first has replaced it. -/
theorem saves_serializable_both : ∃ p : Saves,
    Reaches (Logged.step exec (SaveRequest.program sampleExtern sampleState)) Undisturbed
      ⟨sampleStore, []⟩ p ∧ Succeeded sampleExtern sampleState p 0 savePort ∧
    Succeeded sampleExtern sampleState p 1 saveName ∧
    Serializable sampleExtern sampleState sampleStore p := by
  have hrun : ((runWhile (Logged.step exec (SaveRequest.program sampleExtern sampleState))
      isUndisturbed ⟨sampleStore, []⟩ ([.spawn savePort, .spawn saveName] ++
        answers 0 sampleChecks ++ answers 1 sampleChecks ++
        answers 0 (sampleWrite 0 "port: 1\nserver_name: a\n" "port: 2\nserver_name: a\n" 51) ++
        answers 1 (sampleWrite 1 "port: 2\nserver_name: a\n" "port: 2\nserver_name: b\n" 52) ++
        answers 0 (sampleReload samplePort 51) ++ answers 1 (sampleReload sampleName 52))).any
      bothSaved) = true := by decide +kernel
  obtain ⟨p, hp, hboth⟩ := exists_reaches_of_runWhile (fun _ _ => undisturbed_of_test) hrun
  obtain ⟨hlength, h₀, h₁⟩ := succeeded_of_bothSaved hboth
  refine ⟨p, hp, h₀, h₁, saves_serializable _ _ _ p sampleExtern_roundTrips hp ?_⟩
  intro t ht
  obtain ⟨i, hi, rfl⟩ := List.getElem_of_mem ht
  obtain ⟨past₀, id₀, hi₀, hends₀⟩ := h₀
  obtain ⟨past₁, id₁, hi₁, hends₁⟩ := h₁
  have hindex : i = 0 ∨ i = 1 := by omega
  rcases hindex with rfl | rfl
  · obtain ⟨_, hthread⟩ := List.getElem?_eq_some_iff.mp hi₀
    rw [hthread]
    exact ⟨_, hends₀⟩
  · obtain ⟨_, hthread⟩ := List.getElem?_eq_some_iff.mp hi₁
    rw [hthread]
    exact ⟨_, hends₁⟩

/-- Both saves read the file before one of them replaces it, and the port is lost. -/
theorem not_saves_serializable_both : ∃ p : Saves,
    Reachable (Logged.step exec (SaveRequest.program sampleExtern sampleState))
      ⟨sampleStore, []⟩ p ∧ Succeeded sampleExtern sampleState p 0 savePort ∧
    Succeeded sampleExtern sampleState p 1 saveName ∧
    p.store.file = some "port: 1\nserver_name: b\n" ∧
    ¬ Serializable sampleExtern sampleState sampleStore p := by
  have hrun : ((runFrom (Logged.step exec (SaveRequest.program sampleExtern sampleState))
      ⟨sampleStore, []⟩ ([.spawn savePort, .spawn saveName] ++
        answers 0 sampleChecks ++ answers 1 sampleChecks ++
        answers 0 (sampleRead 0 "port: 1\nserver_name: a\n") ++
        answers 1 (sampleRead 0 "port: 1\nserver_name: a\n") ++
        answers 0 (sampleReplace 0 "port: 1\nserver_name: a\n" "port: 2\nserver_name: a\n" 51) ++
        answers 1 (sampleReplace 1 "port: 1\nserver_name: a\n" "port: 1\nserver_name: b\n" 52) ++
        answers 0 (sampleReload samplePort 51) ++ answers 1 (sampleReload sampleName 52))).any
      fun p => bothSaved p && p.store.file == some "port: 1\nserver_name: b\n") = true := by
    decide +kernel
  obtain ⟨p, hp, hlost⟩ := exists_reachable_of_runFrom hrun
  rw [Bool.and_eq_true, beq_iff_eq] at hlost
  obtain ⟨hboth, hfile⟩ := hlost
  obtain ⟨hlength, h₀, h₁⟩ := succeeded_of_bothSaved hboth
  refine ⟨p, hp, h₀, h₁, hfile, fun hserial => ?_⟩
  have hothers : ∀ j op, Succeeded sampleExtern sampleState p j op → j ≠ 0 →
      ∀ v, ¬ op.Submits (field "port" .number .restart false) v := by
    rintro j op ⟨past, id, hj, -⟩ hne v ⟨values, hvalues, hsubmitted⟩
    have hlt := (List.getElem?_eq_some_iff.mp hj).1
    obtain rfl : j = 1 := by omega
    obtain ⟨past₁, id₁, hi₁, -⟩ := h₁
    rw [hi₁] at hj
    obtain ⟨rfl, -⟩ := Prod.mk.inj (Option.some.inj hj)
    obtain rfl := Option.some.inj hvalues
    have hnone : (field "port" .number .restart false).submitted [("server_name", .str "b")] = none := by
      decide +kernel
    rw [hnone] at hsubmitted
    cases hsubmitted
  obtain ⟨final, hfinal, hport⟩ := hserial.carried 0 savePort h₀
    (field "port" .number .restart false) (by decide) (.num (.posInt 2))
    ⟨[("port", .num (.posInt 2))], rfl, by decide +kernel⟩ hothers
  rw [hfile] at hfinal
  obtain rfl := Option.some.inj hfinal
  revert hport
  decide +kernel

end Ppb.Admin
