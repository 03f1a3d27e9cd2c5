import Ppb.Admin.FieldPermissions
import Ppb.Common.YamlPath

/-!
# Does the merge put exactly the patch?

`merge_yaml_patch` sets the submitted fields one after the other. Positions here are those
of the whole document, through sequences and keys of any kind, not only the paths the
descriptor can name.

* `at?_setYamlPath_of_apart`, `at?_setYamlPath_of_lt`: what `set_yaml_path` leaves alone,
  and what it makes of the mappings on its way.
* `merge_puts_patch`: the new value of each field, and what is as it was.
-/

namespace Ppb.Admin

open Yaml (keys)

variable {x : Extern} {value root root' : Yaml} {path : List String} {other : YamlPath}

/-! ## One field -/

/-- What lies neither below the path nor on the way to it stays. -/
theorem at?_setYamlPath_of_apart (hbelow : ¬ keys path <+: other) (habove : ¬ other <+: keys path)
    (h : setYamlPath value path root = .ok root') : root'.at? other = root.at? other := by
  induction path generalizing other root root' with
  | nil => exact absurd List.nil_prefix hbelow
  | cons key rest ih =>
    obtain ⟨fields, child, rfl, rfl, hchild⟩ := setYamlPath_cases h
    cases other with
    | nil => exact absurd List.nil_prefix habove
    | cons step other =>
      rw [Yaml.at?_cons, Yaml.at?_cons]
      by_cases hstep : step = .key (.str key)
      · subst hstep
        rw [keys, List.map_cons, List.prefix_cons_inj] at hbelow habove
        rw [Yaml.child?_key_str, Yaml.child?_key_str]
        show (Yaml.Mapping.get? (Yaml.Mapping.insert key child fields) key).bind _ =
          (Yaml.Mapping.get? fields key).bind _
        rw [Yaml.Mapping.get?_insert_self, Option.bind_some]
        rcases hchild with ⟨rfl, -⟩ | ⟨-, hchild⟩
        · exact absurd List.nil_prefix hbelow
        · rw [ih hbelow habove hchild]
          cases Yaml.Mapping.get? fields key with
          | some v => rfl
          | none =>
            -- an empty mapping was inserted on the way
            cases other with
            | nil => exact absurd List.nil_prefix habove
            | cons step other => cases step <;> rfl
      · rw [Yaml.child?_insert_of_ne hstep]

/-- A position on the way to the path is a mapping afterwards, and was one if it was there. -/
theorem at?_setYamlPath_of_lt (habove : other <+: keys path) (hne : other ≠ keys path)
    (h : setYamlPath value path root = .ok root') :
    (∃ fields, root'.at? other = some (.map fields)) ∧
      ∀ y, root.at? other = some y → ∃ fields, y = .map fields := by
  induction path generalizing other root root' with
  | nil => exact absurd (List.prefix_nil.mp habove) hne
  | cons key rest ih =>
    obtain ⟨fields, child, rfl, rfl, hchild⟩ := setYamlPath_cases h
    cases other with
    | nil =>
      refine ⟨⟨_, rfl⟩, fun y hy => ⟨fields, (Option.some.inj hy).symm⟩⟩
    | cons step other =>
      rw [keys, List.map_cons, List.cons_prefix_cons] at habove
      obtain ⟨rfl, habove⟩ := habove
      have hne : other ≠ keys rest := fun heq => hne (by rw [heq]; rfl)
      rw [Yaml.at?_cons, Yaml.at?_cons, Yaml.child?_key_str, Yaml.child?_key_str]
      show (∃ f, (Yaml.Mapping.get? (Yaml.Mapping.insert key child fields) key).bind _ = _) ∧
        ∀ y, (Yaml.Mapping.get? fields key).bind _ = _ → _
      rw [Yaml.Mapping.get?_insert_self, Option.bind_some]
      rcases hchild with ⟨rfl, -⟩ | ⟨-, hchild⟩
      · exact absurd (List.prefix_nil.mp habove) hne
      · obtain ⟨hnew, hold⟩ := ih habove hne hchild
        refine ⟨hnew, fun y hy => ?_⟩
        obtain ⟨v, hv, hy⟩ := Option.bind_eq_some_iff.mp hy
        rw [hv] at hold
        exact hold y hy

/-! ## All fields -/

variable {values : List (String × Json)} {fields : List ConfigFieldDescriptor}
  {f : ConfigFieldDescriptor}

theorem patchField_of_some {v : Json} (hv : f.submitted values = some v)
    (h : patchField x values root f = .ok root') :
    setYamlPath (jsonToYaml x v) f.parts root = .ok root' := by
  rw [patchField, hv] at h
  exact h

theorem patchField_of_none (hv : f.submitted values = none)
    (h : patchField x values root f = .ok root') : root' = root := by
  rw [patchField, hv] at h
  exact (Except.ok.inj h).symm

/-- The position lies neither below a submitted field nor on the way to one. -/
def Untouched (values : List (String × Json)) (fields : List ConfigFieldDescriptor)
    (path : YamlPath) : Prop :=
  ∀ f ∈ fields, (f.submitted values).isSome = true →
    ¬ keys f.parts <+: path ∧ ¬ path <+: keys f.parts

/-- The position is on the way to a submitted field. -/
def OnTheWay (values : List (String × Json)) (fields : List ConfigFieldDescriptor)
    (path : YamlPath) : Prop :=
  ∃ f ∈ fields, (f.submitted values).isSome = true ∧ path <+: keys f.parts ∧ path ≠ keys f.parts

theorem at?_foldlM_of_untouched (hpath : Untouched values fields other)
    (h : fields.foldlM (patchField x values) root = .ok root') :
    root'.at? other = root.at? other := by
  induction fields generalizing root with
  | nil => rw [Except.ok.inj h]
  | cons f rest ih =>
    obtain ⟨hf, hrest⟩ := List.forall_mem_cons.mp hpath
    rw [List.foldlM_cons] at h
    obtain ⟨root₁, hfirst, hlast⟩ := except_bind_eq_ok.mp h
    rw [ih hrest hlast]
    cases hv : f.submitted values with
    | none => rw [patchField_of_none hv hfirst]
    | some v =>
      obtain ⟨hbelow, habove⟩ := hf (by rw [hv]; rfl)
      exact at?_setYamlPath_of_apart hbelow habove (patchField_of_some hv hfirst)

/-- A mapping on the way to a field: it is there afterwards, and nothing else was there before. -/
theorem at?_foldlM_of_onTheWay (hway : OnTheWay values fields other)
    (hbelow : ∀ f ∈ fields, (f.submitted values).isSome = true → ¬ keys f.parts <+: other)
    (h : fields.foldlM (patchField x values) root = .ok root') :
    (∃ map, root'.at? other = some (.map map)) ∧
      ∀ y, root.at? other = some y → ∃ map, y = .map map := by
  induction fields generalizing root with
  | nil => obtain ⟨f, hf, -⟩ := hway; cases hf
  | cons f rest ih =>
    obtain ⟨hfbelow, hrbelow⟩ := List.forall_mem_cons.mp hbelow
    rw [List.foldlM_cons] at h
    obtain ⟨root₁, hfirst, hlast⟩ := except_bind_eq_ok.mp h
    by_cases hf : (f.submitted values).isSome = true ∧ other <+: keys f.parts
    · obtain ⟨v, hv⟩ := Option.isSome_iff_exists.mp hf.1
      have hne : other ≠ keys f.parts := fun heq => hfbelow hf.1 (by rw [heq])
      obtain ⟨⟨map, hmap⟩, hold⟩ := at?_setYamlPath_of_lt hf.2 hne (patchField_of_some hv hfirst)
      refine ⟨?_, hold⟩
      by_cases hrest : OnTheWay values rest other
      · exact (ih hrest hrbelow hlast).1
      · have huntouched : Untouched values rest other := by
          intro g hg hsome
          refine ⟨hrbelow g hg hsome, fun habove => hrest ⟨g, hg, hsome, habove, ?_⟩⟩
          exact fun heq => hrbelow g hg hsome (by rw [heq])
        exact ⟨map, by rw [at?_foldlM_of_untouched huntouched hlast, hmap]⟩
    · have hrest : OnTheWay values rest other := by
        obtain ⟨g, hg, hsome, habove, hne⟩ := hway
        rcases List.mem_cons.mp hg with rfl | hg
        · exact absurd ⟨hsome, habove⟩ hf
        · exact ⟨g, hg, hsome, habove, hne⟩
      have hsame : root₁.at? other = root.at? other := by
        cases hv : f.submitted values with
        | none => rw [patchField_of_none hv hfirst]
        | some v =>
          have hsome : (f.submitted values).isSome = true := by rw [hv]; rfl
          exact at?_setYamlPath_of_apart (hfbelow hsome) (fun habove => hf ⟨hsome, habove⟩)
            (patchField_of_some hv hfirst)
      rw [← hsame]
      exact ih hrest hrbelow hlast

/-- No field of the descriptor lies below another. -/
theorem descriptor_parts_eq_of_prefix : ∀ f ∈ pmpConfigDescriptor, ∀ g ∈ pmpConfigDescriptor,
    f.parts <+: g.parts → f.parts = g.parts := by decide +kernel

theorem prefix_of_keys {p q : List String} (h : keys p <+: keys q) : p <+: q := by
  have hinj : Function.Injective fun key : String => YamlStep.key (.str key) := by
    intro a b hab
    exact Yaml.str.inj (YamlStep.key.inj hab)
  exact (List.prefix_map_iff_of_injective hinj).mp h

/-- On the way to a field of the descriptor there is no other field. -/
theorem not_below_of_onTheWay (hway : OnTheWay values pmpConfigDescriptor other) :
    ∀ f ∈ pmpConfigDescriptor, (f.submitted values).isSome = true → ¬ keys f.parts <+: other := by
  intro f hf _ hbelow
  obtain ⟨g, hg, -, habove, hne⟩ := hway
  have hparts : f.parts = g.parts :=
    descriptor_parts_eq_of_prefix f hf g hg (prefix_of_keys (hbelow.trans habove))
  rw [hparts] at hbelow
  exact hne (habove.eq_of_length_le hbelow.length_le)

/-! ## The document -/

/-- What a document has at a position. -/
def yamlAt (x : Extern) (yaml : String) (path : YamlPath) : Option Yaml :=
  match x.parse yaml with
  | .ok root => root.at? path
  | .error _ => none

/-- What `values` put into the document `current` is in `result`, and nothing else. -/
structure PutsPatch (x : Extern) (current : String) (values : List (String × Json))
    (result : String) : Prop where
  patched : ∀ f ∈ pmpConfigDescriptor, ∀ v, Fields.get? values f.path = some v →
    isSentinel f v = false → fieldValue x result f = some (jsonToYaml x v)
  sentinel : ∀ f ∈ pmpConfigDescriptor, ∀ v, Fields.get? values f.path = some v →
    isSentinel f v = true → fieldValue x result f = fieldValue x current f
  absent : ∀ f ∈ pmpConfigDescriptor, Fields.get? values f.path = none →
    fieldValue x result f = fieldValue x current f
  others : ∀ path, Untouched values pmpConfigDescriptor path →
    yamlAt x result path = yamlAt x current path
  /-- Above a patched field is a mapping, which was missing or a mapping too. -/
  parents : ∀ path, OnTheWay values pmpConfigDescriptor path →
    (∃ map, yamlAt x result path = some (.map map)) ∧
      ∀ y, yamlAt x current path = some y → ∃ map, y = .map map
  /-- Other keys of the values have no effect. -/
  known : ∀ values', (∀ f ∈ pmpConfigDescriptor,
      Fields.get? values' f.path = Fields.get? values f.path) →
    mergeYamlPatch x current (.obj values') = .ok result

theorem submitted_of_some {v : Json} (hv : Fields.get? values f.path = some v) :
    f.submitted values = if isSentinel f v then none else some v := by
  rw [ConfigFieldDescriptor.submitted, hv, Option.filter_some]
  cases isSentinel f v <;> rfl

theorem foldlM_patchField_congr {values' : List (String × Json)}
    (h : ∀ f ∈ fields, Fields.get? values' f.path = Fields.get? values f.path) :
    fields.foldlM (patchField x values') root = fields.foldlM (patchField x values) root := by
  induction fields generalizing root with
  | nil => rfl
  | cons f rest ih =>
    obtain ⟨hf, hrest⟩ := List.forall_mem_cons.mp h
    have hfirst : patchField x values' root f = patchField x values root f := by
      rw [patchField, patchField, ConfigFieldDescriptor.submitted,
        ConfigFieldDescriptor.submitted, hf]
    rw [List.foldlM_cons, List.foldlM_cons, hfirst]
    congr 1
    funext root₁
    exact ih hrest

/-- The merge puts the patch into the document, provided that `serde_yaml` reads what it wrote. -/
theorem merge_puts_patch (x : Extern) (hround : x.RoundTrips) (current : String)
    (values : List (String × Json)) (result : String)
    (h : mergeYamlPatch x current (.obj values) = .ok result) :
    PutsPatch x current values result := by
  obtain ⟨body, hbody⟩ : ∃ body : ConfigValuesBody, body.values = .obj values :=
    ⟨⟨.obj values, ""⟩, rfl⟩
  have hmerged : mergeYamlPatch x current body.values = .ok result := by rw [hbody, h]
  have hobject : body.values.asObject = some values := by rw [hbody]; rfl
  have hfield {f : ConfigFieldDescriptor} (hf : f ∈ pmpConfigDescriptor) :=
    fieldValue_merge hround hmerged hobject hf
  obtain ⟨root, values', root', hparse, hvalues, hmerge, hrender⟩ :=
    mergeYamlPatch_cases hmerged
  obtain rfl : values = values' := Option.some.inj (hobject.symm.trans hvalues)
  have hnew (path : YamlPath) : yamlAt x result path = root'.at? path := by
    rw [yamlAt, hround root' result hrender]
  have hold (path : YamlPath) : yamlAt x current path = root.at? path := by
    rw [yamlAt, hparse]
  refine ⟨?_, ?_, ?_, ?_, ?_, ?_⟩
  · intro f hf v hv hsentinel
    rw [hfield hf, submitted_of_some hv, hsentinel]
    rfl
  · intro f hf v hv hsentinel
    rw [hfield hf, submitted_of_some hv, hsentinel]
    rfl
  · intro f hf hv
    rw [hfield hf, ConfigFieldDescriptor.submitted, hv]
    rfl
  · intro path hpath
    rw [hnew, hold]
    exact at?_foldlM_of_untouched hpath hmerge
  · intro path hway
    rw [hnew, hold]
    exact at?_foldlM_of_onTheWay hway (not_below_of_onTheWay hway) hmerge
  · intro values' hsame
    have hmerge' : mergeInto x values' root = .ok root' := by
      rw [← hmerge]
      exact foldlM_patchField_congr hsame
    show (orInvalid _ (x.parse current) >>= fun root => _) = _
    rw [hparse]
    show (mergeInto x values' root >>= fun root => _) = _
    rw [hmerge']
    show orInvalid _ (x.render root') = _
    rw [hrender]
    rfl

/-- A new name; the port stays. -/
theorem merge_puts_patch_name : PutsPatch sampleExtern "port: 1\nserver_name: a\n"
    [("server_name", .str "b")] "port: 1\nserver_name: b\n" :=
  merge_puts_patch sampleExtern sampleExtern_roundTrips _ _ _ (by decide +kernel)

end Ppb.Admin
