import Ppb.Admin.FieldPermissions

/-!
# Can a secret be read?

`values` and `raw` read the file field by field and put a placeholder for each secret;
`snapshots` answers the rows of `config_snapshots` as they are, and their texts are whole
configurations.

* `DiffersInSecrets`: two stores that differ in secrets only.
* `sameResponses_iff`: when the three endpoints answer the same in both.
-/

namespace Ppb.Admin

open Prog Auth Shared

variable {x : Extern} {state : AdminState} {auth : AuthPrincipal} {s t : Store} {a b : String}

/-! ## Secrets -/

/-- The paths of the secrets. -/
def secretPaths : List (List String) :=
  (pmpConfigDescriptor.filter (·.sensitive)).map ConfigFieldDescriptor.parts

/-- Every secret that is there is blanked. -/
def hide (y : Yaml) : Yaml := secretPaths.foldl (fun y path => y.mapAt (fun _ => .null) path) y

/-- Two texts of configurations with the same secrets, which may have other values. -/
def SameButSecrets (x : Extern) (a b : String) : Prop :=
  ∃ ya yb, x.parse a = .ok ya ∧ x.parse b = .ok yb ∧ hide ya = hide yb

/-- The live file and the snapshots of PMP differ in secrets only. -/
structure DiffersInSecrets (x : Extern) (s t : Store) : Prop where
  groups : s.groups = t.groups
  file : s.file = t.file ∨ ∃ a b, s.file = some a ∧ t.file = some b ∧ SameButSecrets x a b
  snapshots : ∃ content : ConfigSnapshot → String,
    t.snapshots.rows = s.snapshots.rows.map (fun r => { r with content := content r }) ∧
      ∀ r ∈ s.snapshots.rows, content r = r.content ∨
        r.scope = "pmp" ∧ SameButSecrets x r.content (content r)

theorem SameButSecrets.symm (h : SameButSecrets x a b) : SameButSecrets x b a := by
  obtain ⟨ya, yb, ha, hb, hhide⟩ := h
  exact ⟨yb, ya, hb, ha, hhide.symm⟩

/-- What lies apart from the secrets is still there. -/
theorem getPath_foldl_mapAt_of_apart {paths : List (List String)} {path : List String}
    (hpaths : ∀ p ∈ paths, Apart p path) (y : Yaml) :
    (paths.foldl (fun y p => y.mapAt (fun _ => .null) p) y).getPath path = y.getPath path := by
  induction paths generalizing y with
  | nil => rfl
  | cons p rest ih =>
    rw [List.forall_mem_cons] at hpaths
    rw [List.foldl_cons, ih hpaths.2]
    exact Yaml.getPath_mapAt_of_disjoint _ _ hpaths.1.1 hpaths.1.2 y

/-- A path among them is blank, or was not there. -/
theorem isSome_getPath_foldl_mapAt {paths : List (List String)} {path : List String}
    (hpair : paths.Pairwise Apart) (hmem : path ∈ paths) (y : Yaml) :
    ((paths.foldl (fun y p => y.mapAt (fun _ => .null) p) y).getPath path).isSome =
      (y.getPath path).isSome := by
  induction paths generalizing y with
  | nil => cases hmem
  | cons p rest ih =>
    rw [List.pairwise_cons] at hpair
    rw [List.foldl_cons]
    rcases List.mem_cons.mp hmem with rfl | hmem
    · rw [getPath_foldl_mapAt_of_apart fun q hq => (hpair.1 q hq).symm, Yaml.getPath_mapAt_self,
        Option.isSome_map]
    · rw [ih hpair.2 hmem, Yaml.getPath_mapAt_of_disjoint _ _ (hpair.1 path hmem).1
        (hpair.1 path hmem).2]

theorem secretPaths_apart : secretPaths.Pairwise Apart := by decide +kernel

theorem secretPaths_apart_of_public {f : ConfigFieldDescriptor} (hf : f ∈ pmpConfigDescriptor)
    (hpublic : f.sensitive = false) : ∀ p ∈ secretPaths, Apart p f.parts := by
  revert f
  decide +kernel

theorem mem_secretPaths {f : ConfigFieldDescriptor} (hf : f ∈ pmpConfigDescriptor)
    (hsecret : f.sensitive = true) : f.parts ∈ secretPaths :=
  List.mem_map_of_mem (List.mem_filter.mpr ⟨hf, hsecret⟩)

/-- The field of the one text and of the other. -/
theorem SameButSecrets.field (h : SameButSecrets x a b) {f : ConfigFieldDescriptor}
    (hf : f ∈ pmpConfigDescriptor) :
    (f.sensitive = false → fieldValue x a f = fieldValue x b f) ∧
      (f.sensitive = true → (fieldValue x a f).isSome = (fieldValue x b f).isSome) := by
  obtain ⟨ya, yb, ha, hb, hhide⟩ := h
  have hpath : (hide ya).getPath f.parts = (hide yb).getPath f.parts := by rw [hhide]
  unfold fieldValue
  rw [ha, hb]
  constructor
  · intro hpublic
    have hapart := secretPaths_apart_of_public hf hpublic
    unfold hide at hpath
    rwa [getPath_foldl_mapAt_of_apart hapart, getPath_foldl_mapAt_of_apart hapart] at hpath
  · intro hsecret
    have hmem := mem_secretPaths hf hsecret
    have hsome := congrArg Option.isSome hpath
    unfold hide at hsome
    rwa [isSome_getPath_foldl_mapAt secretPaths_apart hmem,
      isSome_getPath_foldl_mapAt secretPaths_apart hmem] at hsome

/-- `values` shows the same of both. -/
theorem SameButSecrets.shown (h : SameButSecrets x a b) {f : ConfigFieldDescriptor}
    (hf : f ∈ pmpConfigDescriptor) : shownValue x a f = shownValue x b f := by
  unfold shownValue
  cases hsecret : f.sensitive with
  | false => rw [(h.field hf).1 hsecret]
  | true =>
    rw [if_pos rfl, if_pos rfl]
    simp only [(h.field hf).2 hsecret]

/-- And `raw` writes the same. -/
theorem SameButSecrets.projected (h : SameButSecrets x a b) :
    projectYaml x a = projectYaml x b := by
  have hround : ∀ f ∈ pmpConfigDescriptor, ∀ y, projectField x a y f = projectField x b y f := by
    intro f hf y
    unfold projectField
    cases hsecret : f.sensitive with
    | false => rw [(h.field hf).1 hsecret]
    | true =>
      have hsome := (h.field hf).2 hsecret
      cases ha : fieldValue x a f with
      | none =>
        rw [ha, Option.isSome_none, eq_comm, Option.isSome_eq_false_iff, Option.isNone_iff_eq_none]
          at hsome
        rw [hsome]
      | some va =>
        rw [ha, Option.isSome_some, eq_comm] at hsome
        obtain ⟨vb, hb⟩ := Option.isSome_iff_exists.mp hsome
        rw [hb]
        rfl
  have hloop : ∀ (fields : List ConfigFieldDescriptor), (∀ f ∈ fields, f ∈ pmpConfigDescriptor) →
      ∀ y, fields.foldlM (projectField x a) y = fields.foldlM (projectField x b) y := by
    intro fields
    induction fields with
    | nil => exact fun _ _ => rfl
    | cons f rest ih =>
      intro hfields y
      rw [List.forall_mem_cons] at hfields
      rw [List.foldlM_cons, List.foldlM_cons, hround f hfields.1]
      exact bind_congr (ih hfields.2)
  unfold projectYaml
  rw [hloop _ fun _ => id]

/-! ## Responses -/

/-- The request can be answered so. -/
def Responds {α : Type} (s : Store) (p : Handler α) (r : Except ApiError α) : Prop :=
  Can exec p s fun _ r' => r' = r

/-- The answers of `p` in `s` are answers of `p'` in `t`. -/
def Mimics {α : Type} (s t : Store) (p p' : Handler α) : Prop :=
  ∀ r, Responds s p r → Responds t p' r

theorem exec_server_congr {q : Ppb.Query} {ans : q.Answer} {s' : Store} (hgroups : s.groups = t.groups)
    (hexec : exec s ⟨.server q, ans⟩ = some s') : exec t ⟨.server q, ans⟩ = some t := by
  cases q with
  | groupRows user =>
    show reads t (t.groups user) ans = some t
    have hread : reads s (s.groups user) ans = some s' := hexec
    rw [← hgroups]
    match ans with
    | .ok rows => simp [reads, orUnchanged, (reads_cases hread).2 rows rfl]
    | .error .other => rfl
    | .error .rowNotFound => cases hread
  | _ => rfl

/-- The checks go the same way in both. -/
theorem mimics_call {α β : Type} (hgroups : s.groups = t.groups) (p : Server α)
    {k k' : α → Handler β} (hk : ∀ v, Mimics s t (k v) (k' v)) :
    Mimics s t (call p >>= k) (call p >>= k') := by
  intro r h
  unfold Responds at h ⊢
  rw [can_bind_iff] at h ⊢
  induction p with
  | done r' =>
    cases r' with
    | ok v => exact hk v r h
    | error e => exact h
  | ask q next ih =>
    obtain ⟨ans, s', hexec, hnext⟩ := h
    obtain rfl := exec_server (e := ⟨.server q, ans⟩) trivial hexec
    exact ⟨ans, t, exec_server_congr hgroups hexec, ih ans hnext⟩

theorem mimics_failIf {β : Type} {c : Prop} [Decidable c] {e : ApiError}
    {k k' : Unit → Handler β} (hk : Mimics s t (k ()) (k' ())) :
    Mimics s t (failIf c e >>= k) (failIf c e >>= k') := by
  unfold failIf
  split_ifs with hc
  · exact fun _ => id
  · exact hk

/-- A file is read in both, and the texts may differ. -/
theorem mimics_readYaml {β : Type} {f : String → Except ApiError β}
    (hfile : ∀ a, s.file = some a → ∃ b, t.file = some b ∧ f a = f b) :
    Mimics s t (readYaml state >>= fun text => ofExcept (f text))
      (readYaml state >>= fun text => ofExcept (f text)) := by
  unfold readYaml failIf
  split_ifs with hconfigured
  · exact fun _ => id
  · rintro r ⟨opened, s', hexec, hnext⟩
    cases opened with
    | error u => exact ⟨.error u, t, rfl, hnext⟩
    | ok inode =>
      simp only [exec] at hexec
      split_ifs at hexec with hinode
      obtain rfl := Option.some.inj hexec
      obtain ⟨text, s', hexec, hnext⟩ := hnext
      refine ⟨.ok t.inode, t, by simp [exec], ?_⟩
      cases text with
      | error u => exact ⟨.error u, t, rfl, hnext⟩
      | ok a =>
        simp only [exec] at hexec
        split_ifs at hexec with ha
        obtain ⟨b, hb, hf⟩ := hfile a (ha hinode)
        have hdone : f a = r := hnext
        exact ⟨.ok b, t, by simp [exec, hb], hf.symm.trans hdone⟩

/-- The same answers in both. -/
def SameAnswers {α : Type} (s t : Store) (p : Handler α) : Prop :=
  ∀ r, Responds s p r ↔ Responds t p r

/-- None of the endpoints that read tells the two stores apart. -/
structure SameResponses (x : Extern) (state : AdminState) (auth : AuthPrincipal) (s t : Store) :
    Prop where
  values : SameAnswers s t (values x state auth)
  raw : SameAnswers s t (raw x state auth)
  snapshots : SameAnswers s t (snapshots state auth)

/-- The live texts lead to the same results. -/
theorem DiffersInSecrets.sameFile (h : DiffersInSecrets x s t) {β : Type}
    {f : String → Except ApiError β} (hf : ∀ a b, SameButSecrets x a b → f a = f b) :
    (∀ a, s.file = some a → ∃ b, t.file = some b ∧ f a = f b) ∧
      ∀ b, t.file = some b → ∃ a, s.file = some a ∧ f b = f a := by
  rcases h.file with hfile | ⟨a, b, ha, hb, hab⟩
  · exact ⟨fun a ha => ⟨a, hfile ▸ ha, rfl⟩, fun b hb => ⟨b, hfile ▸ hb, rfl⟩⟩
  · refine ⟨fun a' ha' => ⟨b, hb, ?_⟩, fun b' hb' => ⟨a, ha, ?_⟩⟩
    · rw [← Option.some.inj (ha.symm.trans ha'), hf a b hab]
    · rw [← Option.some.inj (hb.symm.trans hb'), hf a b hab]

/-- An endpoint that makes its answer of the file. -/
theorem DiffersInSecrets.sameAnswers (h : DiffersInSecrets x s t) {β : Type}
    {f : String → Except ApiError β} (hf : ∀ a b, SameButSecrets x a b → f a = f b) :
    SameAnswers s t (do
      call (require state.app auth "config:view")
      failIf (state.configured = false) notConfigured
      let text ← readYaml state
      ofExcept (f text)) := by
  obtain ⟨hst, hts⟩ := h.sameFile hf
  intro r
  constructor
  · exact mimics_call h.groups _ (fun _ => mimics_failIf (mimics_readYaml hst)) r
  · exact mimics_call h.groups.symm _ (fun _ => mimics_failIf (mimics_readYaml hts)) r

theorem mimics_snapshots (hgroups : s.groups = t.groups)
    (hlisted : state.app.db = true → s.listed "pmp" 200 = t.listed "pmp" 200) :
    Mimics s t (snapshots state auth) (snapshots state auth) := by
  refine mimics_call hgroups _ fun _ => ?_
  show Mimics s t (call state.app.requireDb >>= _) (call state.app.requireDb >>= _)
  unfold AppState.requireDb failIf
  split_ifs with hdb
  · exact fun _ => id
  · rintro r ⟨rows, s', hexec, hnext⟩
    have hread : reads s (s.listed "pmp" 200) rows = some s' := hexec
    rw [hlisted (by simpa using hdb)] at hread
    match rows with
    | .ok rows =>
      refine ⟨.ok rows, t, ?_, hnext⟩
      simp [exec, reads, orUnchanged, (reads_cases hread).2 rows rfl]
    | .error .other => exact ⟨.error .other, t, rfl, hnext⟩
    | .error .rowNotFound => cases hread

/-- `snapshots` answers the rows that are listed. -/
theorem responds_snapshots (hdb : state.app.db = true) (hholds : s.Holds auth "config:view") :
    Responds s (snapshots state auth) (.ok (s.listed "pmp" 200)) := by
  refine can_bind (can_call auth _) ?_
  rintro _ _ ⟨rfl, rfl⟩
  refine ⟨(), eval_require hdb hholds, ?_⟩
  show Can exec (call state.app.requireDb >>= _) _ _
  refine can_bind (can_call auth _) ?_
  rintro s _ ⟨rfl, rfl⟩
  refine ⟨(), by simp [hdb], ?_⟩
  exact ⟨.ok (s.listed "pmp" 200), s, by simp [exec, reads, orUnchanged], rfl⟩

/-- And nothing else. -/
theorem runs_snapshots {h : History Query Query.Answer} :
    Runs exec (snapshots state auth) s h fun _ _ r => ∀ rows, r = .ok rows →
      rows = s.listed "pmp" 200 := by
  refine runs_bind (runs_call _) ?_ fun _ _ _ _ => nofun
  rintro s₁ h₁ ⟨⟩ ⟨rfl, -⟩
  refine runs_bind (runs_call _) ?_ fun _ _ _ _ => nofun
  rintro s₂ h₂ ⟨⟩ ⟨rfl, -⟩
  intro rows s₃ hexec
  have hread : reads s₂ (s₂.listed "pmp" 200) rows = some s₃ := hexec
  cases rows with
  | error e => exact fun rows => nofun
  | ok rows =>
    intro rows' hrows'
    rw [← Except.ok.inj hrows', (reads_cases hread).2 rows rfl]

/-! ## The snapshots that are listed -/

theorem mem_of_mem_listed {scope : String} {limit : ℕ} {r : ConfigSnapshot}
    (hr : r ∈ s.listed scope limit) : r ∈ s.snapshots.rows := by
  have hsorted := List.mem_mergeSort.mp (List.mem_of_mem_take hr)
  exact (List.mem_filter.mp hsorted).1

/-- The list depends on the scopes and the times alone. -/
theorem listed_map {content : ConfigSnapshot → String}
    (hrows : t.snapshots.rows = s.snapshots.rows.map fun r => { r with content := content r })
    (scope : String) (limit : ℕ) :
    t.listed scope limit = (s.listed scope limit).map fun r => { r with content := content r } := by
  unfold Store.listed
  rw [hrows, List.filter_map, List.map_take, List.map_mergeSort]
  · rfl
  · exact fun _ _ _ _ => rfl

/-- The listed rows are those of the other store, if each is a row there. -/
theorem DiffersInSecrets.listed_eq (h : DiffersInSecrets x s t)
    (hsame : ∀ r ∈ s.listed "pmp" 200, r ∈ t.snapshots.rows) :
    s.listed "pmp" 200 = t.listed "pmp" 200 := by
  obtain ⟨content, hrows, -⟩ := h.snapshots
  have hkept : ∀ r ∈ s.listed "pmp" 200, ({ r with content := content r } : ConfigSnapshot) = r := by
    intro r hr
    have hmem := hsame r hr
    rw [hrows] at hmem
    obtain ⟨r', hr', heq⟩ := List.mem_map.mp hmem
    -- the row that became `r` has the key of `r`
    have hid : r'.id = r.id := by rw [← heq]
    have hrow : r' = r := by
      rcases Table.eq_or_compat (t := s.snapshots) hr' (mem_of_mem_listed hr) with hrow | hne | hne
      · exact hrow
      · exact absurd hid hne
      · exact absurd hid.symm hne
    rwa [hrow] at heq
  rw [listed_map hrows, List.map_congr_left hkept, List.map_id']

/-! ## What the endpoints tell -/

/-- Two stores that differ in secrets only get the same answers just when the listed snapshots
    are the same rows in both. -/
theorem sameResponses_iff (x : Extern) (state : AdminState) (auth : AuthPrincipal) (s t : Store)
    (hdiffers : DiffersInSecrets x s t) (hholds : s.Holds auth "config:view") :
    SameResponses x state auth s t ↔
      (state.app.db = true → ∀ r ∈ s.listed "pmp" 200, r ∈ t.snapshots.rows) := by
  constructor
  · intro hsame hdb r hr
    obtain ⟨h, s', r', hends, hexec, rfl⟩ :=
      ((hsame.snapshots _).mp (responds_snapshots hdb hholds)).ends
    have hlisted := (runs_snapshots (h := [])).ends hends hexec _ rfl
    rw [hlisted] at hr
    exact mem_of_mem_listed hr
  · intro hcond
    have hlisted : state.app.db = true → s.listed "pmp" 200 = t.listed "pmp" 200 :=
      fun hdb => hdiffers.listed_eq (hcond hdb)
    refine ⟨?_, ?_, ?_⟩
    · refine hdiffers.sameAnswers (f := fun yaml => .ok (pmpConfigDescriptor.map fun f =>
        (f.path, shownValue x yaml f))) fun a b hab => ?_
      have hmap := List.map_congr_left (l := pmpConfigDescriptor)
        (f := fun f => (f.path, shownValue x a f)) fun f hf => congrArg (f.path, ·) (hab.shown hf)
      exact congrArg Except.ok hmap
    · exact hdiffers.sameAnswers fun a b hab => hab.projected
    · intro r
      constructor
      · exact mimics_snapshots hdiffers.groups hlisted r
      · exact mimics_snapshots hdiffers.groups.symm (fun hdb => (hlisted hdb).symm) r

/-! ### A secret in the file, and one in a snapshot -/

/-- A configuration with a name and the URL of the database. -/
def secretYaml (url : String) : Yaml :=
  .map [(.str "server_name", .str "a"), (.str "database_url", .str url)]

def secretExtern : Extern := .ofTable
  [("server_name: a\ndatabase_url: u\n", secretYaml "u"),
    ("server_name: a\ndatabase_url: v\n", secretYaml "v")]

/-- The user 1 may look at the configuration; one text is live and another is in a snapshot. -/
def secretStore (live stored : String) : Store where
  users := [1]
  groups _ := [⟨none, some "config:view"⟩]
  members _ := []
  file := some live
  tmp := none
  snapshots := ⟨[⟨51, "pmp", stored, "pre-save: ", some 1, 9, none⟩], by simp⟩
  ppfConfig := none
  runbooks := .empty
  events := .empty
  acknowledged := none

theorem secretStore_differs {live live' stored stored' : String}
    (hlive : SameButSecrets secretExtern live live')
    (hstored : SameButSecrets secretExtern stored stored') :
    DiffersInSecrets secretExtern (secretStore live stored) (secretStore live' stored') where
  groups := rfl
  file := .inr ⟨live, live', rfl, rfl, hlive⟩
  snapshots := by
    refine ⟨fun _ => stored', rfl, fun r hr => .inr ?_⟩
    rw [List.mem_singleton.mp hr]
    exact ⟨rfl, hstored⟩

theorem sameButSecrets_url (url url' : String) (hurl : url = "u" ∨ url = "v")
    (hurl' : url' = "u" ∨ url' = "v") :
    SameButSecrets secretExtern ("server_name: a\ndatabase_url: " ++ url ++ "\n")
      ("server_name: a\ndatabase_url: " ++ url' ++ "\n") := by
  refine ⟨secretYaml url, secretYaml url', ?_, ?_, ?_⟩
  · rcases hurl with rfl | rfl <;> decide +kernel
  · rcases hurl' with rfl | rfl <;> decide +kernel
  · rcases hurl with rfl | rfl <;> rcases hurl' with rfl | rfl <;> decide +kernel

/-- The live URL is not seen. -/
theorem sameResponses_live : SameResponses secretExtern sampleState sampleAuth
    (secretStore "server_name: a\ndatabase_url: u\n" "server_name: a\ndatabase_url: u\n")
    (secretStore "server_name: a\ndatabase_url: v\n" "server_name: a\ndatabase_url: u\n") := by
  refine (sameResponses_iff _ _ _ _ _ ?_ (by decide +kernel)).mpr ?_
  · exact secretStore_differs (sameButSecrets_url "u" "v" (.inl rfl) (.inr rfl))
      (sameButSecrets_url "u" "u" (.inl rfl) (.inl rfl))
  · exact fun _ r hr => mem_of_mem_listed hr

/-- The URL in a snapshot is. -/
theorem not_sameResponses_snapshot : ∃ s t : Store, DiffersInSecrets secretExtern s t ∧
    s.Holds sampleAuth "config:view" ∧ s.file = t.file ∧
      ¬ SameResponses secretExtern sampleState sampleAuth s t := by
  refine ⟨secretStore "server_name: a\ndatabase_url: u\n" "server_name: a\ndatabase_url: u\n",
    secretStore "server_name: a\ndatabase_url: u\n" "server_name: a\ndatabase_url: v\n",
    ?_, by decide +kernel, rfl, fun hsame => ?_⟩
  · exact secretStore_differs (sameButSecrets_url "u" "u" (.inl rfl) (.inl rfl))
      (sameButSecrets_url "u" "v" (.inl rfl) (.inr rfl))
  · obtain ⟨h, s', r', hends, hexec, rfl⟩ :=
      ((hsame.snapshots _).mp (responds_snapshots rfl (by decide +kernel))).ends
    have hlisted := (runs_snapshots (h := [])).ends hends hexec _ rfl
    revert hlisted
    decide +kernel

end Ppb.Admin
