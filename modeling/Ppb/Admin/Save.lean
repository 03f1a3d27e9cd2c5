import Ppb.Admin.Config
import Ppb.Common.Alone

/-!
# Is a save all or nothing?

`save` takes a snapshot of the file, replaces the file and then tells PMP to reload. If PMP does
not acknowledge the reload, `save` fails with the new file in place.

* `SaveOutcome`: what a save that runs alone can come to. `save_runs`: it comes to nothing else.
* `save_atomic_iff`: when an error means that the file is as it was.
-/

namespace Ppb.Admin

open Prog Auth Shared

variable {x : Extern} {state : AdminState} {auth : AuthPrincipal} {headers : Headers}
  {body : ConfigValuesBody} {s s' : Store} {h : History Query Query.Answer}

/-! ## The checks -/

/-- The permissions of a principal. -/
def Store.permissions (s : Store) (auth : AuthPrincipal) : List String :=
  if auth.isRoot = true then [rootWildcard] else permissionsOfRows (s.groups auth.sub)

/-- The principal holds a permission. -/
def Store.Holds (s : Store) (auth : AuthPrincipal) (permission : String) : Prop :=
  grants (s.permissions auth) permission = true

instance (s : Store) (auth : AuthPrincipal) (permission : String) :
    Decidable (s.Holds auth permission) := inferInstanceAs (Decidable (_ = _))

/-- A question of the checks or of the audit log. -/
def IsServer : Query → Prop
  | .server _ => True
  | _ => False

theorem exec_server {e : Event Query Query.Answer} (he : IsServer e.1) (hexec : exec s e = some s') :
    s' = s := by
  obtain ⟨q, a⟩ := e
  cases q with
  | server q =>
    unfold exec at hexec
    split at hexec
    case h_1 => exact (reads_cases hexec).1
    case h_2 => exact (Option.some.inj hexec).symm
    all_goals rename_i heq; cases heq
  | _ => exact he.elim

theorem only_call {α : Type} (p : Server α) : (call p).Only IsServer := by
  refine only_lift ?_
  induction p with
  | done r => trivial
  | ask q next ih => exact ⟨trivial, ih⟩

theorem runs_call {α : Type} (p : Server α) :
    Runs exec (call p) s h fun s' h' _ => s' = s ∧ Extends IsServer h h' :=
  runs_of_only (only_call p) fun _ _ _ => exec_server

/-- The permissions that are looked up are those of the store. -/
theorem runs_permissionsForPrincipal {app : AppState} :
    Runs exec (call (permissionsForPrincipal app auth)) s h fun s' h' r =>
      (s' = s ∧ Extends IsServer h h') ∧ ∀ perms, r = .ok perms → perms = s.permissions auth := by
  unfold permissionsForPrincipal Store.permissions
  split_ifs with hroot
  · exact ⟨⟨rfl, .refl⟩, fun perms hperms => (Except.ok.inj hperms).symm⟩
  · unfold AppState.requireDb failIf
    split_ifs with hdb
    · exact ⟨⟨rfl, .refl⟩, nofun⟩
    · intro rows s' hexec
      have hread : reads s (s.groups auth.sub) rows = some s' := hexec
      obtain ⟨rfl, hrows⟩ := reads_cases hread
      have hx : Extends IsServer h (h ++ [⟨.server (.groupRows auth.sub), rows⟩]) :=
        Extends.refl.snoc trivial
      cases rows with
      | error e => exact ⟨⟨rfl, hx⟩, nofun⟩
      | ok rows =>
        refine ⟨⟨rfl, hx⟩, fun perms hperms => ?_⟩
        rw [← Except.ok.inj hperms, hrows rows rfl]

/-- `require` lets through who holds the permission. -/
theorem runs_require {app : AppState} {permission : String} :
    Runs exec (call (require app auth permission)) s h fun s' h' r =>
      (s' = s ∧ Extends IsServer h h') ∧ (r = .ok () → s.Holds auth permission) := by
  unfold require hasPermission call
  rw [lift_bind, lift_bind]
  refine runs_bind (P := fun s' h' r => (s' = s ∧ Extends IsServer h h') ∧
    ∀ granted, r = .ok granted → granted = grants (s.permissions auth) permission) ?_ ?_ ?_
  · refine runs_bind runs_permissionsForPrincipal ?_ ?_
    · rintro s' h' perms ⟨hsame, hperms⟩
      rw [hperms perms rfl]
      exact ⟨hsame, fun granted hgranted => (Except.ok.inj hgranted).symm⟩
    · rintro s' h' e ⟨hsame, -⟩
      exact ⟨hsame, nofun⟩
  · rintro s' h' granted ⟨hsame, hgranted⟩
    cases hg : granted with
    | false => exact ⟨hsame, nofun⟩
    | true => exact ⟨hsame, fun _ => (hgranted granted rfl).symm.trans hg⟩
  · rintro s' h' e ⟨hsame, -⟩
    exact ⟨hsame, nofun⟩

theorem runs_requireDb {app : AppState} :
    Runs exec (call app.requireDb) s h fun s' h' r =>
      (s' = s ∧ Extends IsServer h h') ∧ (r = .ok () → app.db = true) := by
  unfold AppState.requireDb failIf
  split_ifs with hdb
  · exact ⟨⟨rfl, .refl⟩, nofun⟩
  · exact ⟨⟨rfl, .refl⟩, fun _ => by simpa using hdb⟩

/-- Without the header there is no second login. -/
theorem runs_checkReauthHeader {risk : ReauthRisk} :
    Runs exec (call (checkReauthHeader auth headers risk)) s h fun s' h' r =>
      (s' = s ∧ Extends IsServer h h') ∧
        (r = .ok () → (headers.get "x-reauth-token").isSome = true) := by
  cases htoken : headers.get "x-reauth-token" with
  | none =>
    unfold checkReauthHeader
    rw [htoken]
    exact ⟨⟨rfl, .refl⟩, nofun⟩
  | some token => exact runs_mono (runs_call _) fun s' h' r hsame => ⟨hsame, fun _ => rfl⟩

theorem orInvalid_eq_ok {α : Type} {what : String} {r : Except String α} {a : α}
    (h : orInvalid what r = .ok a) : r = .ok a := by
  cases r with
  | ok b => exact congrArg Except.ok (Except.ok.inj h)
  | error e => cases h

/-! ## What a save comes to -/

/-- PMP was asked to reload and did not acknowledge it. -/
def ReloadFailed (h : History Query Query.Answer) : Prop := ∃ e, ⟨.reload, .error e⟩ ∈ h

/-- What the checks of `save` let through. -/
structure MayRead (state : AdminState) (auth : AuthPrincipal) (headers : Headers)
    (body : ConfigValuesBody) (s : Store) : Prop where
  holds : s.Holds auth "config:reload"
  token : (headers.get "x-reauth-token").isSome = true
  valid : checkValues body.values = .ok ()
  configured : state.configured = true

/-- What gets as far as the write: `text` is the merge of the file `prev`, and a snapshot can be
    stored. -/
structure MayWrite (x : Extern) (state : AdminState) (auth : AuthPrincipal) (headers : Headers)
    (body : ConfigValuesBody) (s : Store) (prev text : String) : Prop
    extends MayRead state auth headers body s where
  read : s.file = some prev
  merged : mergeYamlPatch x prev body.values = .ok text
  parses : ∃ y, x.parse text = .ok y
  db : state.app.db = true
  actor : s.references (some auth.sub) = true
  free : ∃ id, ∀ r ∈ s.snapshots, r.id ≠ id

/-- The file `prev` was replaced by the merge, and is in a snapshot. -/
structure Replaced (x : Extern) (state : AdminState) (auth : AuthPrincipal) (headers : Headers)
    (body : ConfigValuesBody) (s s' : Store) (prev text : String) (id : Uuid) : Prop
    extends MayWrite x state auth headers body s prev text where
  file : s'.file = some text
  stored : ∃ r ∈ s'.snapshots, r.id = id ∧ r.scope = "pmp" ∧ r.content = prev

/-- What a save that runs alone can come to. -/
inductive SaveOutcome (x : Extern) (state : AdminState) (auth : AuthPrincipal) (headers : Headers)
    (body : ConfigValuesBody) (s s' : Store) (h : History Query Query.Answer) :
    Except ApiError Uuid → Prop
  | refused (e : ApiError) (hfile : s'.file = s.file) (hreload : ¬ ReloadFailed h) :
      SaveOutcome x state auth headers body s s' h (.error e)
  | unacknowledged (e : OpenUdsError) (prev text : String) (id : Uuid)
      (hreplaced : Replaced x state auth headers body s s' prev text id)
      (hreload : ⟨.reload, .error e⟩ ∈ h) :
      SaveOutcome x state auth headers body s s' h (.error e.toApiError)
  | saved (prev text : String) (id : Uuid)
      (hreplaced : Replaced x state auth headers body s s' prev text id)
      (hack : s'.acknowledged = some text) (hreload : ¬ ReloadFailed h) :
      SaveOutcome x state auth headers body s s' h (.ok id)

/-- No reload was asked for yet. -/
def Early (h : History Query Query.Answer) : Prop := ∀ e ∈ h, e.1 ≠ .reload

theorem Early.not_reloadFailed (hh : Early h) : ¬ ReloadFailed h :=
  fun ⟨_, he⟩ => hh _ he rfl

theorem Early.snoc (hh : Early h) {e : Event Query Query.Answer} (he : e.1 ≠ .reload) :
    Early (h ++ [e]) := by
  intro e' he'
  rcases List.mem_append.mp he' with he' | he'
  · exact hh e' he'
  · rwa [List.mem_singleton.mp he']

theorem Early.past {h' : History Query Query.Answer} (hh : Early h)
    (hx : Extends (· ≠ .reload) h h') : Early h' := by
  obtain ⟨es, rfl, hes⟩ := hx
  intro e he
  rcases List.mem_append.mp he with he | he
  · exact hh e he
  · exact hes e he

theorem Early.extends {h' : History Query Query.Answer} (hh : Early h)
    (hx : Extends IsServer h h') : Early h' := by
  refine hh.past (hx.mono fun q hq => ?_)
  rintro rfl
  exact hq

theorem not_reloadFailed_snoc {e : Event Query Query.Answer} (hh : ¬ ReloadFailed h)
    (he : ∀ err, e ≠ ⟨.reload, .error err⟩) : ¬ ReloadFailed (h ++ [e]) := by
  rintro ⟨err, hmem⟩
  rcases List.mem_append.mp hmem with hmem | hmem
  · exact hh ⟨err, hmem⟩
  · exact he err (List.mem_singleton.mp hmem).symm

/-- The end of a save: the file is in place. -/
theorem runs_saveReload {prev text : String} {id : Uuid} {s₀ : Store} (hh : Early h)
    (hreplaced : Replaced x state auth headers body s₀ s prev text id) :
    Runs exec (saveReload headers body id) s h fun s' h' r => SaveOutcome x state auth headers body s₀ s' h' r := by
  intro reloaded s₁ hexec
  cases reloaded with
  | error e =>
    obtain rfl := Option.some.inj hexec
    exact .unacknowledged e prev text id hreplaced (by simp)
  | ok v =>
    obtain rfl := Option.some.inj hexec
    have hno : ¬ ReloadFailed (h ++ [⟨.reload, .ok v⟩]) :=
      not_reloadFailed_snoc hh.not_reloadFailed (by simp)
    intro audited s₂ hexec
    obtain rfl := Option.some.inj hexec
    refine .saved prev text id ⟨hreplaced.toMayWrite, hreplaced.file, hreplaced.stored⟩
      hreplaced.file ?_
    exact not_reloadFailed_snoc hno (by simp)

theorem mem_insertSnapshot {scope content note : String} {actor : Option Uuid} {id : Uuid} {time : ℕ}
    (h : s.insertSnapshot scope content note actor id time = some s') :
    s.references actor = true ∧ (∀ r ∈ s.snapshots, r.id ≠ id) ∧
      ⟨id, scope, content, note, actor, time, none⟩ ∈ s'.snapshots ∧ s'.file = s.file := by
  unfold Store.insertSnapshot at h
  split_ifs at h with hactor
  obtain ⟨rows, hrows, rfl⟩ := Option.map_eq_some_iff.mp h
  have hfree : ∀ r ∈ s.snapshots, SnapshotKeys r ⟨id, scope, content, note, actor, time, none⟩ :=
    fun r hr => Table.compat_of_insert hrows hr
  exact ⟨hactor, hfree, (Table.mem_insert hrows).mpr (.inr rfl), rfl⟩

/-- The text of the configuration changes by a rename, or by a write to the file itself. -/
theorem exec_file {e : Event Query Query.Answer} (hexec : exec s e = some s') :
    s'.file = s.file ∨ e = ⟨.rename, .ok ()⟩ ∨
      ∃ content a, e = ⟨.write s.inode content, a⟩ ∧ s'.file = a.2 := by
  cases exec_effect hexec with
  | elsewhere hfile _ => exact .inl hfile
  | wrote content a he h => exact .inr (.inr ⟨content, a, he, by rw [h]⟩)
  | renamed text he _ _ => exact .inr (.inl he)
  | inserted scope content note actor id time _ h => exact .inl (mem_insertSnapshot h).2.2.2
  | restored id time _ h =>
    obtain ⟨rows, -, rfl⟩ := Option.map_eq_some_iff.mp h
    exact .inl rfl

/-- `write_yaml_atomic` replaces the file by its rename, or leaves it. -/
theorem runs_writeYamlAtomic {content : String} :
    Runs exec (writeYamlAtomic state content) s h fun s' h' r =>
      Extends (· ≠ .reload) h h' ∧ s'.snapshots = s.snapshots ∧
        (r = .ok () ∧ s'.file = some content ∧ ⟨.rename, .ok ()⟩ ∈ h' ∨
          (∃ e, r = .error e) ∧ s'.file = s.file) := by
  refine runs_failIf_bind (fun _ => ⟨.refl, rfl, .inr ⟨⟨_, rfl⟩, rfl⟩⟩) fun _ => ?_
  intro created s₁ hexec
  have hx₁ : Extends (· ≠ .reload) h (h ++ [⟨.createTmp, created⟩]) := Extends.refl.snoc (by simp)
  cases created with
  | error u =>
    obtain rfl := Option.some.inj hexec
    exact ⟨hx₁, rfl, .inr ⟨⟨_, rfl⟩, rfl⟩⟩
  | ok inode =>
    simp only [exec] at hexec
    split_ifs at hexec with hinode
    obtain rfl := Option.some.inj hexec
    rintro ⟨written, left⟩ s₂ hexec
    have hx₂ := hx₁.snoc (e := ⟨.write inode content, written, left⟩) (by simp)
    -- nobody has renamed the file that was opened, so the text goes there
    simp only [exec, Store.write, if_pos hinode, Option.join_some] at hexec
    split_ifs at hexec with hleaves
    obtain rfl := Option.some.inj hexec
    cases written with
    | error u => exact ⟨hx₂, rfl, .inr ⟨⟨_, rfl⟩, rfl⟩⟩
    | ok u =>
      obtain rfl : left = some content := by simpa [leaves] using hleaves
      intro renamed s₃ hexec
      have hx₃ := hx₂.snoc (e := ⟨.rename, renamed⟩) (by simp)
      cases renamed with
      | error u =>
        obtain rfl := Option.some.inj hexec
        exact ⟨hx₃, rfl, .inr ⟨⟨_, rfl⟩, rfl⟩⟩
      | ok u =>
        obtain rfl := Option.some.inj hexec
        exact ⟨hx₃, rfl, .inl ⟨rfl, rfl, by simp⟩⟩

/-- A save that has read the file. -/
theorem runs_saveOver {prev : String} (hh : Early h) (hmay : MayRead state auth headers body s)
    (hread : s.file = some prev) :
    Runs exec (saveOver x state auth headers body prev) s h fun s' h' r =>
      SaveOutcome x state auth headers body s s' h' r := by
  refine runs_ofExcept_bind (fun e _ => .refused e rfl hh.not_reloadFailed) fun text hmerged => ?_
  refine runs_ofExcept_bind (fun e _ => .refused e rfl hh.not_reloadFailed) fun y hparses => ?_
  refine runs_bind runs_requireDb ?_ ?_
  · rintro s₁ h₁ ⟨⟩ ⟨⟨rfl, hx⟩, hdb⟩
    have hh₁ := hh.extends hx
    intro row s₂ hexec
    have hh₂ := hh₁.snoc (e := ⟨.insertSnapshot "pmp" prev ("pre-save: " ++ body.note)
      (some auth.sub), row⟩) (by simp)
    cases row with
    | error e =>
      have hsame : s₂ = s₁ := (orUnchanged_cases hexec).resolve_right (by simp)
      rw [hsame]
      exact .refused _ rfl hh₂.not_reloadFailed
    | ok row =>
      obtain ⟨hactor, hfree, hmem, hfile⟩ := mem_insertSnapshot hexec
      have hmayWrite : MayWrite x state auth headers body s₁ prev text :=
        ⟨hmay, hread, hmerged, ⟨y, orInvalid_eq_ok hparses⟩, hdb rfl, hactor, _, hfree⟩
      show Runs exec (writeYamlAtomic state text >>= fun _ => saveReload headers body row.1) _ _ _
      refine runs_bind runs_writeYamlAtomic ?_ ?_
      · rintro s₃ h₃ u ⟨hx₃, hsnapshots, ⟨-, hfile₃, -⟩ | ⟨⟨e, he⟩, -⟩⟩
        · have hmem₃ := hsnapshots ▸ hmem
          exact runs_saveReload (hh₂.past hx₃) ⟨hmayWrite, hfile₃, _, hmem₃, rfl, rfl, rfl⟩
        · cases he
      · rintro s₃ h₃ e ⟨hx₃, -, ⟨he, -⟩ | ⟨-, hfile₃⟩⟩
        · cases he
        · exact .refused e (hfile₃.trans hfile) (hh₂.past hx₃).not_reloadFailed
  · rintro s₁ h₁ e ⟨⟨rfl, hx⟩, -⟩
    exact .refused e rfl (hh.extends hx).not_reloadFailed

/-- The checks change nothing. -/
theorem runs_saveGuard :
    Runs exec (saveGuard state auth headers body) s h fun s' h' r =>
      (s' = s ∧ Extends IsServer h h') ∧ (r = .ok () → MayRead state auth headers body s) := by
  refine runs_bind runs_require ?_ ?_
  · rintro s₁ h₁ ⟨⟩ ⟨⟨rfl, hx₁⟩, hholds⟩
    refine runs_bind runs_checkReauthHeader ?_ ?_
    · rintro s₂ h₂ ⟨⟩ ⟨⟨rfl, hx₂⟩, htoken⟩
      have hx := hx₁.trans hx₂
      refine runs_ofExcept_bind (fun e _ => ⟨⟨rfl, hx⟩, nofun⟩) fun _ hvalid => ?_
      show Runs exec (failIf _ _) _ _ _
      unfold failIf
      split_ifs with hconfigured
      · exact ⟨⟨rfl, hx⟩, nofun⟩
      · refine ⟨⟨rfl, hx⟩, fun _ => ⟨hholds rfl, htoken rfl, hvalid, by simpa using hconfigured⟩⟩
    · rintro s₂ h₂ e ⟨⟨rfl, hx₂⟩, -⟩
      exact ⟨⟨rfl, hx₁.trans hx₂⟩, nofun⟩
  · rintro s₁ h₁ e ⟨hsame, -⟩
    exact ⟨hsame, nofun⟩

theorem runs_readYaml :
    Runs exec (readYaml state) s h fun s' h' r => s' = s ∧ Extends (· ≠ .reload) h h' ∧
      ∀ text, r = .ok text → s.file = some text := by
  refine runs_failIf_bind (fun _ => ⟨rfl, .refl, nofun⟩) fun _ => ?_
  intro opened s₁ hexec
  have hx₁ : Extends (· ≠ .reload) h (h ++ [⟨.openFile, opened⟩]) := Extends.refl.snoc (by simp)
  cases opened with
  | error u => exact ⟨(Option.some.inj hexec).symm, hx₁, nofun⟩
  | ok inode =>
    simp only [exec] at hexec
    split_ifs at hexec with hinode
    obtain rfl := Option.some.inj hexec
    intro text s₂ hexec
    have hx₂ := hx₁.snoc (e := ⟨.readFile inode, text⟩) (by simp)
    cases text with
    | error u => exact ⟨(Option.some.inj hexec).symm, hx₂, nofun⟩
    | ok text =>
      simp only [exec] at hexec
      split_ifs at hexec with hfile
      refine ⟨(Option.some.inj hexec).symm, hx₂, fun found hfound => ?_⟩
      rw [hfile hinode, Except.ok.inj hfound]

/-- A save that runs alone comes to nothing else. -/
theorem save_runs : Runs exec (save x state auth headers body) s [] fun s' h' r =>
    SaveOutcome x state auth headers body s s' h' r := by
  have hnil : Early [] := List.forall_mem_nil _
  refine runs_bind runs_saveGuard ?_ ?_
  · rintro s₁ h₁ ⟨⟩ ⟨⟨rfl, hx⟩, hmay⟩
    refine runs_bind runs_readYaml ?_ ?_
    · rintro s₂ h₂ prev ⟨rfl, hx₂, hfile⟩
      exact runs_saveOver ((hnil.extends hx).past hx₂) (hmay rfl) (hfile prev rfl)
    · rintro s₂ h₂ e ⟨rfl, hx₂, -⟩
      exact .refused e rfl ((hnil.extends hx).past hx₂).not_reloadFailed
  · rintro s₁ h₁ e ⟨⟨rfl, hx⟩, -⟩
    exact .refused e rfl (hnil.extends hx).not_reloadFailed

/-! ## All or nothing -/

/-- The requests of `save`, and how one of them goes when it runs alone. -/
structure SaveRun (x : Extern) (state : AdminState) (auth : AuthPrincipal) (headers : Headers)
    (body : ConfigValuesBody) (s : Store) (h : History Query Query.Answer) (s' : Store)
    (r : Except ApiError Uuid) : Prop where
  ends : (save x state auth headers body).Ends h r
  exec : execAll exec s h = some s'

theorem SaveRun.outcome {r : Except ApiError Uuid} (hrun : SaveRun x state auth headers body s h s' r) :
    SaveOutcome x state auth headers body s s' h r := save_runs.ends hrun.ends hrun.exec

/-- An error means that the file is as it was; and a success that it is the merge, that the
    previous text is in the snapshot, and that PMP has loaded the new one. -/
structure SaveAtomic (x : Extern) (body : ConfigValuesBody) (s s' : Store)
    (r : Except ApiError Uuid) : Prop where
  error : ∀ e, r = .error e → s'.file = s.file
  ok : ∀ id, r = .ok id → ∃ prev text, s.file = some prev ∧
    mergeYamlPatch x prev body.values = .ok text ∧ s'.file = some text ∧
    (∃ row ∈ s'.snapshots, row.id = id ∧ row.scope = "pmp" ∧ row.content = prev) ∧
    s'.acknowledged = some text

/-- A save is all or nothing just when PMP acknowledges the reload that it is asked for, or the
    merge is the text that was there. -/
theorem save_atomic_iff (x : Extern) (state : AdminState) (auth : AuthPrincipal) (headers : Headers)
    (body : ConfigValuesBody) (s : Store) (h : History Query Query.Answer) (s' : Store)
    (r : Except ApiError Uuid) (hrun : SaveRun x state auth headers body s h s' r) :
    SaveAtomic x body s s' r ↔
      (ReloadFailed h → ∀ prev, s.file = some prev → mergeYamlPatch x prev body.values = .ok prev) := by
  cases hrun.outcome with
  | refused e hfile hreload =>
    refine ⟨fun _ hfailed => absurd hfailed hreload, fun _ => ⟨fun _ _ => hfile, nofun⟩⟩
  | unacknowledged e prev text id hreplaced hreload =>
    constructor
    · intro hatomic _ prev' hprev'
      have hsame := hatomic.error _ rfl
      rw [hreplaced.file, hprev'] at hsame
      obtain rfl : prev = prev' := Option.some.inj (hreplaced.read.symm.trans hprev')
      rw [hreplaced.merged, Option.some.inj hsame]
    · intro hsame
      refine ⟨fun _ _ => ?_, nofun⟩
      have htext := hsame ⟨e, hreload⟩ prev hreplaced.read
      rw [hreplaced.merged] at htext
      rw [hreplaced.file, hreplaced.read, Except.ok.inj htext]
  | saved prev text id hreplaced hack hreload =>
    refine ⟨fun _ hfailed => absurd hfailed hreload, fun _ => ⟨nofun, ?_⟩⟩
    rintro _ ⟨⟩
    exact ⟨prev, text, hreplaced.read, hreplaced.merged, hreplaced.file, hreplaced.stored, hack⟩

/-! ### Two saves -/

/-- `serde_yaml` on a few texts: each with the value it parses to. The first text of a value is
    the one it is written as. -/
def Extern.ofTable (table : List (String × Yaml)) : Extern where
  parse text :=
    match table.find? (·.1 == text) with
    | some row => .ok row.2
    | none => .error "unknown text"
  render y :=
    match table.find? (·.2 == y) with
    | some row => .ok row.1
    | none => .error "unknown value"
  fromValue
    | .null => some .null
    | .bool b => some (.bool b)
    | .num n => some (.num n)
    | .str s => some (.str s)
    | _ => none
  asF64 n := toString n.toNat
  readFloat := some
  urlScheme _ := none
  parseUuid := Uuid.ofText

/-- A configuration with a port and a server name. -/
def sampleYaml (port : UInt64) (name : String) : Yaml :=
  .map [(.str "port", .num (.posInt port)), (.str "server_name", .str name)]

/-- The texts of four such configurations. -/
def sampleExtern : Extern := .ofTable
  [("port: 1\nserver_name: a\n", sampleYaml 1 "a"), ("port: 2\nserver_name: a\n", sampleYaml 2 "a"),
    ("port: 1\nserver_name: b\n", sampleYaml 1 "b"), ("port: 2\nserver_name: b\n", sampleYaml 2 "b")]

/-- The user 1 may reload the configuration. -/
def sampleStore : Store where
  users := [1]
  groups _ := [⟨none, some "config:reload"⟩]
  members _ := []
  file := some "port: 1\nserver_name: a\n"
  tmp := none
  snapshots := .empty
  ppfConfig := none
  runbooks := .empty
  events := .empty
  acknowledged := none

def sampleState : AdminState := ⟨⟨true, 10⟩, true⟩

def sampleAuth : AuthPrincipal := ⟨1, 21, .user, .panel, "r-1"⟩

def sampleHeaders : Headers := [("x-reauth-token", "t")]

/-- The answers to the checks of a save. -/
def sampleChecks : History Query Query.Answer :=
  [⟨.server (.groupRows 1), .ok [⟨none, some "config:reload"⟩]⟩,
    ⟨.server (.decodeReauthToken "t"), some ⟨"reauth", 1, 21, .user, .panel, "critical", 0, 100⟩⟩,
    ⟨.server .now, (10 : Int64)⟩]

/-- He saves another port, or another name. -/
def samplePort : ConfigValuesBody := ⟨.obj [("port", .num (.posInt 2))], ""⟩

def sampleName : ConfigValuesBody := ⟨.obj [("server_name", .str "b")], ""⟩

/-- The configuration is read. -/
def sampleRead (inode : ℕ) (prev : String) : History Query Query.Answer :=
  [⟨.openFile, .ok inode⟩, ⟨.readFile inode, .ok prev⟩]

/-- And replaced, when its inode is `inode`. -/
def sampleReplace (inode : ℕ) (prev text : String) (id : Uuid) : History Query Query.Answer :=
  [⟨.insertSnapshot "pmp" prev "pre-save: " (some 1), .ok (id, 9)⟩, ⟨.createTmp, .ok (inode + 1)⟩,
    ⟨.write (inode + 1) text, .ok (), some text⟩, ⟨.rename, .ok ()⟩]

/-- A save up to its reload. -/
def sampleWrite (inode : ℕ) (prev text : String) (id : Uuid) : History Query Query.Answer :=
  sampleRead inode prev ++ sampleReplace inode prev text id

/-- PMP loads the file. -/
def sampleReload (body : ConfigValuesBody) (id : Uuid) : History Query Query.Answer :=
  [⟨.reload, .ok .emptyObject⟩, ⟨.server (.recordPrincipal (auditRecord "config.save"
    (.obj [("changed_paths", changedPaths body.values), ("snapshot_id", .str id.toText)])
      sampleHeaders)), .ok ()⟩]

/-- He saves another port. -/
theorem save_atomic_port : ∃ h s', SaveRun sampleExtern sampleState sampleAuth sampleHeaders samplePort
    sampleStore h s' (.ok 51) ∧ SaveAtomic sampleExtern samplePort sampleStore s' (.ok 51) := by
  let h := sampleChecks ++ sampleWrite 0 "port: 1\nserver_name: a\n" "port: 2\nserver_name: a\n" 51 ++
    sampleReload samplePort 51
  have hends : (save sampleExtern sampleState sampleAuth sampleHeaders samplePort).Ends h (.ok 51) := by
    decide +kernel
  have hexec : (execAll exec sampleStore h).isSome = true := by decide +kernel
  obtain ⟨s', hs'⟩ := Option.isSome_iff_exists.mp hexec
  have hrun : SaveRun sampleExtern sampleState sampleAuth sampleHeaders samplePort sampleStore h s'
      (.ok 51) := ⟨hends, hs'⟩
  refine ⟨h, s', hrun, (save_atomic_iff _ _ _ _ _ _ _ _ _ hrun).mpr ?_⟩
  rintro ⟨e, he⟩
  simp [h, sampleChecks, sampleWrite, sampleRead, sampleReplace, sampleReload] at he

/-- PMP does not answer: the save fails, and the new port stays in the file. -/
theorem not_save_atomic_unreachable : ∃ h s' e, SaveRun sampleExtern sampleState sampleAuth sampleHeaders
    samplePort sampleStore h s' (.error e) ∧ s'.file = some "port: 2\nserver_name: a\n" ∧
      sampleStore.file = some "port: 1\nserver_name: a\n" ∧
      ¬ SaveAtomic sampleExtern samplePort sampleStore s' (.error e) := by
  let h := sampleChecks ++ sampleWrite 0 "port: 1\nserver_name: a\n" "port: 2\nserver_name: a\n" 51 ++
    [⟨.reload, .error (.timeout 5000)⟩]
  have hends : (save sampleExtern sampleState sampleAuth sampleHeaders samplePort).Ends h
      (.error (OpenUdsError.timeout 5000).toApiError) := by
    decide +kernel
  have hexec : ((execAll exec sampleStore h).any fun s' =>
      decide (s'.file = some "port: 2\nserver_name: a\n")) = true := by decide +kernel
  obtain ⟨s', hs', hfile⟩ := (Option.any_eq_true _ _).mp hexec
  have hfile' := of_decide_eq_true hfile
  refine ⟨h, s', _, ⟨hends, hs'⟩, hfile', rfl, fun hatomic => ?_⟩
  have hsame := hatomic.error _ rfl
  rw [hfile'] at hsame
  exact absurd hsame (by decide)

end Ppb.Admin
