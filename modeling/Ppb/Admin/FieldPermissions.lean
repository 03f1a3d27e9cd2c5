import Ppb.Admin.Save

/-!
# Who may change a field?

Every field of the descriptor names the permission that guards it: `config:reload` for what PMP
takes at a reload, `config:rollback` for what needs a restart. `save` asks for `config:reload`
whatever was submitted.

* `can_save`: what `MayWrite` allows does get written.
* `writes_permitted_iff`: which saves change only what their author may change.
-/

namespace Ppb.Admin

open Prog Auth Shared

variable {x : Extern} {state : AdminState} {auth : AuthPrincipal} {headers : Headers}
  {body : ConfigValuesBody} {s s' : Store} {prev text : String}

/-- Whoever changes a field by this save holds the permission of the field. -/
def WritesPermitted (x : Extern) (state : AdminState) (auth : AuthPrincipal) (headers : Headers)
    (body : ConfigValuesBody) (s : Store) : Prop :=
  ∀ h s' r, SaveRun x state auth headers body s h s' r → ∀ old new, s.file = some old →
    s'.file = some new → ∀ f ∈ pmpConfigDescriptor, fieldValue x old f ≠ fieldValue x new f →
      s.Holds auth f.permission

/-- What `serde_yaml` writes it reads back. -/
def Extern.RoundTrips (x : Extern) : Prop := ∀ y text, x.render y = .ok text → x.parse text = .ok y

/-- Each submitted field that needs a restart has the submitted value already. -/
def RestartFieldsKept (x : Extern) (body : ConfigValuesBody) (old : String) : Prop :=
  ∀ values, body.values.asObject = some values → ∀ f ∈ pmpConfigDescriptor,
    f.reloadSemantics = .restart → ∀ v, f.submitted values = some v →
      fieldValue x old f = some (jsonToYaml x v)

/-! ## A save that is let through -/

/-- The answers to the checks of `auth`, who has just logged in for a second time. -/
def Store.checked (s : Store) (auth : AuthPrincipal) : (q : Ppb.Query) → q.Answer
  | .groupRows user => .ok (s.groups user)
  | .decodeReauthToken _ =>
    some ⟨"reauth", auth.sub, auth.sid, auth.principalType, auth.clientType, "critical", 0, 1⟩
  | q => emptyWorld q

theorem exec_checked (q : Ppb.Query) : exec s ⟨.server q, s.checked auth q⟩ = some s := by
  cases q with
  | groupRows user => simp [exec, Store.checked, reads, orUnchanged]
  | _ => rfl

theorem can_call {α : Type} (auth : AuthPrincipal) (p : Server α) :
    Can exec (call p) s fun s' r => s' = s ∧ r = p.eval (s.checked auth) := by
  induction p with
  | done r => exact ⟨rfl, rfl⟩
  | ask q next ih => exact ⟨s.checked auth q, s, exec_checked q, ih _⟩

theorem eval_require {app : AppState} {permission : String} (hdb : app.db = true)
    (hholds : s.Holds auth permission) :
    (require app auth permission).eval (s.checked auth) = .ok () := by
  unfold Store.Holds Store.permissions at hholds
  by_cases hroot : auth.isRoot = true
  · rw [if_pos hroot] at hholds
    simp [require, hasPermission, permissionsForPrincipal, hroot, hholds, Except.bind]
  · rw [if_neg hroot] at hholds
    simp [require, hasPermission, permissionsForPrincipal, hroot, hdb, Store.checked, hholds,
      Except.bind]

theorem eval_checkReauthHeader (htoken : (headers.get "x-reauth-token").isSome = true) :
    (checkReauthHeader auth headers .critical).eval (s.checked auth) = .ok () := by
  obtain ⟨token, htoken⟩ := Option.isSome_iff_exists.mp htoken
  simp [checkReauthHeader, decodeReauth, htoken, Store.checked, Except.bind, emptyWorld,
    ReauthRisk.adequate]

theorem can_saveGuard (hdb : state.app.db = true) (hmay : MayRead state auth headers body s) :
    Can exec (saveGuard state auth headers body) s fun s' r => s' = s ∧ r = .ok () := by
  refine can_bind (can_call auth _) ?_
  rintro _ _ ⟨rfl, rfl⟩
  refine ⟨(), eval_require hdb hmay.holds, can_bind (can_call auth _) ?_⟩
  rintro _ _ ⟨rfl, rfl⟩
  refine ⟨(), eval_checkReauthHeader hmay.token, ?_⟩
  rw [hmay.valid]
  show Can exec (failIf _ _) _ _
  unfold failIf
  rw [if_neg (by simp [hmay.configured])]
  exact ⟨rfl, rfl⟩

theorem can_writeYamlAtomic (hconfigured : state.configured = true) (content : String) :
    Can exec (writeYamlAtomic state content) s fun s' r => s'.file = some content ∧ r = .ok () := by
  unfold writeYamlAtomic failIf
  rw [if_neg (by simp [hconfigured])]
  let s₁ : Store := { s with tmp := some (some "") }
  let s₂ : Store := { s with tmp := some (some content) }
  have hcreate : exec s ⟨.createTmp, .ok (s.inode + 1)⟩ = some s₁ := if_pos rfl
  have hwrite : exec s₁ ⟨.write (s.inode + 1) content, .ok (), some content⟩ = some s₂ := by
    simp [exec, Store.write, leaves, s₁, s₂]
  exact can_ask _ hcreate (can_ask _ hwrite (can_ask (.ok ()) rfl ⟨rfl, rfl⟩))

theorem can_readYaml (hconfigured : state.configured = true) (hread : s.file = some prev) :
    Can exec (readYaml state) s fun s' r => s' = s ∧ r = .ok prev := by
  unfold readYaml failIf
  rw [if_neg (by simp [hconfigured])]
  have hopen : exec s ⟨.openFile, .ok s.inode⟩ = some s := if_pos rfl
  have hfound : exec s ⟨.readFile s.inode, .ok prev⟩ = some s := if_pos fun _ => hread
  exact can_ask _ hopen (can_ask _ hfound ⟨rfl, rfl⟩)

theorem exists_insertSnapshot (scope content note : String) (time : ℕ) {actor : Option Uuid}
    {id : Uuid} (hactor : s.references actor = true) (hfree : ∀ r ∈ s.snapshots, r.id ≠ id) :
    ∃ s', s.insertSnapshot scope content note actor id time = some s' := by
  obtain ⟨rows, hrows⟩ := Table.exists_insert (t := s.snapshots)
    (r := ⟨id, scope, content, note, actor, time, none⟩) hfree
  exact ⟨{ s with snapshots := rows }, by rw [Store.insertSnapshot, if_pos hactor, hrows]; rfl⟩

/-- What may be written can be. -/
theorem can_save (hmay : MayWrite x state auth headers body s prev text) :
    Can exec (save x state auth headers body) s fun s' _ => s'.file = some text := by
  refine can_bind (can_saveGuard hmay.db hmay.toMayRead) ?_
  rintro _ _ ⟨rfl, rfl⟩
  refine ⟨(), rfl, can_bind (can_readYaml hmay.configured hmay.read) ?_⟩
  rintro s₁ _ ⟨rfl, rfl⟩
  refine ⟨prev, rfl, ?_⟩
  obtain ⟨y, hy⟩ := hmay.parses
  unfold saveOver
  rw [hmay.merged]
  show Can exec (ofExcept (orInvalid _ (x.parse text)) >>= _) _ _
  rw [hy]
  show Can exec (call state.app.requireDb >>= _) _ _
  refine can_bind (can_call auth state.app.requireDb) ?_
  rintro _ _ ⟨rfl, rfl⟩
  refine ⟨(), by simp [hmay.db], ?_⟩
  obtain ⟨id, hfree⟩ := hmay.free
  obtain ⟨s₂, hinsert⟩ := exists_insertSnapshot "pmp" prev ("pre-save: " ++ body.note) 0 hmay.actor
    hfree
  refine can_ask (.ok (id, 0)) hinsert ?_
  show Can exec (writeYamlAtomic state text >>= _) _ _
  refine can_bind (can_writeYamlAtomic hmay.configured text) ?_
  rintro s₃ _ ⟨hfile, rfl⟩
  exact ⟨(), rfl, can_ask (.ok .emptyObject) rfl (can_ask (.ok ()) rfl hfile)⟩

/-! ## What a save changes -/

/-- The merge that a save writes, as values. -/
theorem mergeYamlPatch_cases (h : mergeYamlPatch x prev body.values = .ok text) :
    ∃ root values root', x.parse prev = .ok root ∧ body.values.asObject = some values ∧
      mergeInto x values root = .ok root' ∧ x.render root' = .ok text := by
  obtain ⟨root, hparse, h⟩ := except_bind_eq_ok.mp h
  cases hvalues : body.values.asObject with
  | none => rw [hvalues] at h; cases h
  | some values =>
    rw [hvalues] at h
    obtain ⟨root', hmerge, hrender⟩ := except_bind_eq_ok.mp h
    exact ⟨root, values, root', orInvalid_eq_ok hparse, rfl, hmerge, orInvalid_eq_ok hrender⟩

/-- What a field is in the new file. -/
theorem fieldValue_merge (hround : x.RoundTrips) (h : mergeYamlPatch x prev body.values = .ok text)
    {values : List (String × Json)} (hvalues : body.values.asObject = some values)
    {f : ConfigFieldDescriptor} (hf : f ∈ pmpConfigDescriptor) :
    fieldValue x text f =
      match f.submitted values with
      | some v => some (jsonToYaml x v)
      | none => fieldValue x prev f := by
  obtain ⟨root, values', root', hparse, hvalues', hmerge, hrender⟩ := mergeYamlPatch_cases h
  obtain rfl : values' = values := Option.some.inj (hvalues'.symm.trans hvalues)
  have hnew : fieldValue x text f = root'.getPath f.parts := by
    rw [fieldValue, hround root' text hrender]
  have hold : fieldValue x prev f = root.getPath f.parts := by rw [fieldValue, hparse]
  rw [hnew, getPath_mergeInto hmerge hf]
  cases f.submitted values' with
  | some v => rfl
  | none => exact hold.symm

/-- The file that a save leaves is the old one or the merge. -/
theorem SaveRun.written {h : History Query Query.Answer} {r : Except ApiError Uuid}
    (hrun : SaveRun x state auth headers body s h s' r) :
    s'.file = s.file ∨ ∃ prev text, MayWrite x state auth headers body s prev text ∧
      s'.file = some text := by
  cases hrun.outcome with
  | refused e hfile _ => exact .inl hfile
  | unacknowledged e prev text id hreplaced _ =>
    exact .inr ⟨prev, text, hreplaced.toMayWrite, hreplaced.file⟩
  | saved prev text id hreplaced _ _ =>
    exact .inr ⟨prev, text, hreplaced.toMayWrite, hreplaced.file⟩

/-- Who may not change the fields that need a restart must not get to write another value. -/
theorem WritesPermitted.restartFieldsKept (hpermitted : WritesPermitted x state auth headers body s)
    (hround : x.RoundTrips) (hmay : MayWrite x state auth headers body s prev text)
    (hholds : ¬ s.Holds auth "config:rollback") : RestartFieldsKept x body prev := by
  intro values hvalues f hf hrestart v hv
  by_contra hdiffers
  obtain ⟨h, s', r, hends, hexec, hfile⟩ := (can_save hmay).ends
  have hnew := fieldValue_merge hround hmay.merged hvalues hf
  rw [hv] at hnew
  have hchanged : fieldValue x prev f ≠ fieldValue x text f := by rwa [hnew]
  have hown := hpermitted h s' r ⟨hends, hexec⟩ prev text hmay.read hfile f hf hchanged
  rw [descriptor_permission hf, hrestart] at hown
  exact hholds hown

/-- A save changes only what its author may change just when it is refused, or he holds
    `config:rollback`, or the fields that need a restart have the submitted values already. -/
theorem writes_permitted_iff (x : Extern) (state : AdminState) (auth : AuthPrincipal)
    (headers : Headers) (body : ConfigValuesBody) (s : Store) (hround : x.RoundTrips) :
    WritesPermitted x state auth headers body s ↔
      ∀ prev text, MayWrite x state auth headers body s prev text →
        s.Holds auth "config:rollback" ∨ RestartFieldsKept x body prev := by
  constructor
  · intro hpermitted prev text hmay
    by_cases hholds : s.Holds auth "config:rollback"
    · exact .inl hholds
    · exact .inr (hpermitted.restartFieldsKept hround hmay hholds)
  · intro hcond h s' r hrun old new hold hnew f hf hdiffers
    rcases hrun.written with hsame | ⟨prev, text, hmay, hfile⟩
    · rw [hsame, hold] at hnew
      exact absurd (by rw [Option.some.inj hnew]) hdiffers
    · obtain rfl : prev = old := Option.some.inj (hmay.read.symm.trans hold)
      obtain rfl : text = new := Option.some.inj (hfile.symm.trans hnew)
      rw [descriptor_permission hf]
      split_ifs with hhot
      · exact hmay.holds
      · refine (hcond prev text hmay).resolve_right fun hkept => hdiffers ?_
        have hrestart : f.reloadSemantics = .restart := by
          cases hreload : f.reloadSemantics with
          | hot => exact absurd hreload hhot
          | restart => rfl
        obtain ⟨root, values, root', -, hvalues, -, -⟩ := mergeYamlPatch_cases hmay.merged
        rw [fieldValue_merge hround hmay.merged hvalues hf]
        cases hv : f.submitted values with
        | none => rfl
        | some v => exact hkept values hvalues f hf hrestart v hv

/-! ### A name and a port -/

/-- A table of texts is read back if no text stands for two values. -/
theorem Extern.roundTrips_ofTable {table : List (String × Yaml)}
    (hnodup : (table.map (·.1)).Nodup) : (Extern.ofTable table).RoundTrips := by
  intro y text hrender
  simp only [Extern.ofTable] at hrender ⊢
  cases hfind : table.find? (·.2 == y) with
  | none => rw [hfind] at hrender; cases hrender
  | some row =>
    rw [hfind] at hrender
    have hmem : row ∈ table := List.mem_of_find?_eq_some hfind
    have htext : row.1 = text := Except.ok.inj hrender
    have hy : row.2 = y := by simpa using List.find?_some hfind
    cases hparse : table.find? (·.1 == text) with
    | none => exact absurd (by simp [htext]) (List.find?_eq_none.mp hparse row hmem)
    | some row' =>
      have hmem' : row' ∈ table := List.mem_of_find?_eq_some hparse
      have htext' : row'.1 = text := by simpa using List.find?_some hparse
      have heq : row' = row :=
        List.inj_on_of_nodup_map hnodup hmem' hmem (htext'.trans htext.symm)
      rw [← hy, heq]

theorem sampleExtern_roundTrips : sampleExtern.RoundTrips :=
  Extern.roundTrips_ofTable (by decide)

/-- The name of the server can be changed with `config:reload`. -/
theorem writes_permitted_name :
    WritesPermitted sampleExtern sampleState sampleAuth sampleHeaders sampleName sampleStore := by
  refine (writes_permitted_iff _ _ _ _ _ _ sampleExtern_roundTrips).mpr fun prev text _ => .inr ?_
  intro values hvalues f hf hrestart v hv
  obtain rfl := Option.some.inj hvalues
  have hnone : ∀ f ∈ pmpConfigDescriptor, f.reloadSemantics = .restart →
      f.submitted [("server_name", .str "b")] = none := by decide +kernel
  rw [hnone f hf hrestart] at hv
  cases hv

/-- Nobody has given the user 1 the permission to change the port, and he changes it. -/
theorem not_writes_permitted_port : ¬ sampleStore.Holds sampleAuth "config:rollback" ∧
    ¬ WritesPermitted sampleExtern sampleState sampleAuth sampleHeaders samplePort sampleStore := by
  have hholds : ¬ sampleStore.Holds sampleAuth "config:rollback" := by decide +kernel
  refine ⟨hholds, fun hpermitted => ?_⟩
  have hmay : MayWrite sampleExtern sampleState sampleAuth sampleHeaders samplePort sampleStore
      "port: 1\nserver_name: a\n" "port: 2\nserver_name: a\n" :=
    { holds := by decide +kernel
      token := by decide +kernel
      valid := by decide +kernel
      configured := rfl
      read := rfl
      merged := by decide +kernel
      parses := ⟨sampleYaml 2 "a", by decide +kernel⟩
      db := rfl
      actor := by decide
      free := ⟨51, nofun⟩ }
  have hkept := hpermitted.restartFieldsKept sampleExtern_roundTrips hmay hholds
    [("port", .num (.posInt 2))] rfl (field "port" .number .restart false) (by decide) rfl
    (.num (.posInt 2)) (by decide +kernel)
  revert hkept
  decide +kernel

end Ppb.Admin
