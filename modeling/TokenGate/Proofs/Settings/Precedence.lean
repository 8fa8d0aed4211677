import TokenGate.CommandLine.Arguments
import TokenGate.Proofs.Settings.Fields

/-! # Where the configuration comes from

The fields of a configuration that is loaded come from the variables that set them, else from the
file, else from the defaults (`Layered`), whatever the order of the variables. The variables have to
be clear of each other and of the right type, and none may lead into a section that the file writes
as a list: the list would go as a whole. Then variables of no field make no difference, and only the
timeouts and the public paths decide whether there is a configuration (`load_precedence`). -/

namespace TokenGate.Proofs.Settings.Precedence

open TokenGate.Settings TokenGate.Settings.Setting TokenGate.Proofs.Results
open TokenGate.Proofs.Settings.Entries TokenGate.Proofs.Settings.Records
open TokenGate.Proofs.Settings.Sources TokenGate.Proofs.Settings.Layers
open TokenGate.Proofs.Settings.Environment TokenGate.Proofs.Settings.Fields

/-- The settings of a file, if one is named. -/
def settingsOf : Option ConfigFile → Except ServiceFault Setting
  | some f => f.settings
  | none => .ok (.table .environment [])

/-- **Each field has its origin**: the layer that decides it, else the file, else the default. -/
structure Layered (base : Setting) (ls : List Layer) (c : Config) : Prop where
  layer : ∀ f ∈ fields, ∀ l ∈ ls, Decides f.path l.tree →
    Told f.reading f.get .default (field? f.path l.tree) c
  file : ∀ f ∈ fields, (∀ l ∈ ls, ¬Decides f.path l.tree) →
    Told f.reading f.get .default (field? f.path base) c

/-- A path that leads to a field, or to a section. -/
def Named (ns : List String) : Prop := ∃ f ∈ fields, ns <+: names f.path

/-- Layers that say something about the configuration are clear of all others. -/
def Distinct (ls : List Layer) : Prop :=
  ls.Pairwise fun l l' => Named l.path ∨ Named l'.path → Clear l.path l'.path

variable {base s : Setting} {ls ls' : List Layer} {l : Layer} {c c' : Config}
  {file : Option ConfigFile} {env : List (String × String)}

/-! ### What is read in layers -/

theorem told_eq {β : Type} {reading : Reading β} {get : Config → β} {o : Option Setting}
    (h : Told reading get .default o c) (h' : Told reading get .default o c') : get c = get c' := by
  cases o with
  | none => exact h.trans h'.symm
  | some s => exact Except.ok.inj (h.symm.trans h')

theorem Layered.get_eq (h : Layered base ls c) (h' : Layered base ls' c') {f : Field}
    (hf : f ∈ fields)
    (hls : ∀ l, Decides f.path l.tree → (l ∈ ls ↔ l ∈ ls')) : f.get c = f.get c' := by
  by_cases hd : ∃ l ∈ ls, Decides f.path l.tree
  · obtain ⟨l, hl, hd⟩ := hd
    exact told_eq (h.layer f hf l hl hd) (h'.layer f hf l ((hls l hd).mp hl) hd)
  · have hnone : ∀ l ∈ ls, ¬Decides f.path l.tree := fun l hl hd' => hd ⟨l, hl, hd'⟩
    exact told_eq (h.file f hf hnone)
      (h'.file f hf fun l hl hd' => hnone l ((hls l hd').mpr hl) hd')

theorem named_of_decides {f : Field} (hf : f ∈ fields) (h : Decides f.path l.tree) : Named l.path :=
  ⟨f, hf, prefix_of_decides_nest h⟩

section Layers

variable {o : Origin} {bs : List (String × Setting)} (hbase : Ordered (.table o bs))
include hbase

/-- **What is read of layers** over a file. -/
theorem layered_of_reading (hdistinct : Distinct ls)
    (hspares : ∀ l ∈ ls, ∀ f ∈ fields, Spares f.path (.table o bs) l.tree)
    (h : Config.reading ((Setting.table o bs).overlay (stack ls)) = .ok c) :
    Layered (.table o bs) ls c := by
  have htold := told_fields (ordered_overlay hbase (ordered_stack ls)) h
  constructor
  · intro f hf l hl hd
    obtain ⟨before, later, rfl⟩ := List.append_of_mem hl
    have hclear : ∀ l' ∈ later, Clear l.path l'.path := fun l' hl' =>
      (List.pairwise_cons.mp (List.pairwise_append.mp hdistinct).2.1).1 l' hl'
        (Or.inl (named_of_decides hf hd))
    obtain ⟨hdecides, hfield⟩ := field?_stack_of_decides hclear hd before
    have hmerged := (field?_overlay_of_decides (ordered_stack _) hdecides (.table o bs)).2
    rw [← hfield, ← hmerged]
    exact htold f hf
  · intro f hf hnone
    have hspare := spares_stack fun l hl => hspares l hl f hf
    rcases field?_overlay_of_not_decides (ordered_stack ls) (not_decides_stack hnone) hspare with
      heq | ⟨o', es, heq⟩
    · rw [← heq]
      exact htold f hf
    · -- A table is not the value of any field.
      have := htold f hf
      rw [heq] at this
      exact absurd ⟨_, this⟩ (flat_fields f hf o' es)

theorem readable_layers (hread : Readable Config.reading (.table o bs))
    (hls : ∀ l ∈ ls, Readable Config.reading l.tree) :
    ∃ c, Config.reading ((Setting.table o bs).overlay (stack ls)) = .ok c := by
  have hstack : Readable Config.reading (stack ls) := by
    clear hread hbase
    induction ls using List.reverseRecOn with
    | nil => exact ⟨.default, rfl⟩
    | append_singleton ls l ih =>
      rw [stack_concat]
      exact mergeable_config _ _ (ordered_stack ls) l.ordered_tree
        (ih fun l' hl' => hls l' (List.mem_append_left _ hl'))
        (hls l (List.mem_append_right _ List.mem_cons_self))
  exact mergeable_config _ _ hbase (ordered_stack ls) hread hstack

end Layers

/-! ### What is loaded -/

theorem table_of_settingsOf (h : settingsOf file = .ok base) :
    Ordered base ∧ ∃ o bs, base = .table o bs := by
  cases file with
  | none =>
    cases h
    exact ⟨ordered_empty _, _, _, rfl⟩
  | some f =>
    rw [settingsOf, ConfigFile.settings] at h
    split at h
    · cases h
    · split at h
      · rename_i text _ s hs
        cases h
        obtain ⟨n, -, hn⟩ := Option.bind_eq_some_iff.mp hs
        obtain ⟨hordered, es, rfl⟩ := ordered_of_table? hn
        exact ⟨hordered, _, _, rfl⟩
      · cases h

theorem load_eq (h : settingsOf file = .ok base) (env : List (String × String)) :
    Config.load file env = Config.ofSetting (base.overlay (stack (layers env))) := by
  rw [← ofEnvironment_eq]
  cases file with
  | none =>
    cases h
    rfl
  | some f =>
    rw [settingsOf] at h
    rw [Config.load, h]
    rfl

theorem ofSetting_eq_ok :
    Config.ofSetting s = .ok c ↔ Config.reading s = .ok c ∧ c.validate = .ok () := by
  rw [Config.ofSetting]
  cases Config.reading s with
  | error m => simp
  | ok c₀ =>
    simp only [map_eq_ok, Except.ok.injEq]
    constructor
    · rintro ⟨_, hvalid, rfl⟩
      exact ⟨rfl, hvalid⟩
    · rintro ⟨rfl, hvalid⟩
      exact ⟨(), hvalid, rfl⟩

theorem ofSetting_of_reading (h : Config.reading s = .ok c) :
    Config.ofSetting s = (fun _ => c) <$> c.validate := by
  rw [Config.ofSetting, h]

/-- **A configuration is usable** if both timeouts are positive and every public path starts with a
slash. -/
theorem validate_eq_ok : c.validate = .ok () ↔ 0 < c.auth.verificationTimeout ∧
    0 < c.auth.discoveryTimeout ∧ ∀ p ∈ c.auth.publicPaths, p.toList.head? = some '/' := by
  have hpos : ∀ n : UInt64, 0 < n ↔ n ≠ 0 := fun n => UInt64.pos_iff_ne_zero
  have hpaths : (c.auth.publicPaths.any fun p => p.toList.head? ≠ some '/') = true ↔
      ¬∀ p ∈ c.auth.publicPaths, p.toList.head? = some '/' := by simp
  rw [Config.validate, hpos, hpos]
  split_ifs with hv hd hp
  · simp [hv]
  · simp [hd]
  · exact iff_of_false nofun fun h => hpaths.mp hp h.2.2
  · exact iff_of_true rfl ⟨hv, hd, not_not.mp fun h => hp (hpaths.mpr h)⟩

/-! ### Variables of no section -/

/-- Whether a name is that of a section. -/
def isSection (n : String) : Bool := n = "server" || n = "auth"

/-- The entries of the sections. -/
def sectionEntries (s : Setting) : List (String × Setting) :=
  (entries s).filter fun e => isSection e.1

theorem reading_table (o : Origin) (es : List (String × Setting)) : Config.reading (.table o es) =
    Reading.setEntries (sections.map Slot.member) (es.filter fun e => isSection e.1) .default := by
  rw [setEntries_filter (by simp [sections, isSection])]
  rfl

theorem stack_eq_table (h : ∀ l ∈ ls, l.path ≠ []) :
    stack ls = .table .environment (entries (stack ls)) := by
  cases ls using List.reverseRecOn with
  | nil => rfl
  | append_singleton ls l _ =>
    obtain ⟨n, ns, hpath⟩ := List.exists_cons_of_ne_nil (h l (List.mem_append_right _ List.mem_cons_self))
    rw [stack_concat, Layer.tree, hpath, nest, overlay_single, entries_table]

theorem sectionEntries_concat (ls : List Layer) {n : String} {ns : List String}
    (hpath : l.path = n :: ns) : sectionEntries (stack (ls ++ [l])) =
      if isSection n then put n (place (lookup? n (sectionEntries (stack ls)))
        (nest .environment l.value ns)) (sectionEntries (stack ls))
      else sectionEntries (stack ls) := by
  have hinc : Increasing (entries (stack ls)) := by
    have := ordered_stack ls
    cases hs : stack ls with
    | scalar => exact List.Pairwise.nil
    | list => exact List.Pairwise.nil
    | table o es => exact Ordered.increasing_entries (hs ▸ this)
  rw [stack_concat, Layer.tree, hpath, nest, overlay_single, sectionEntries, entries_table]
  split_ifs with hn
  · rw [filter_put hinc hn, sectionEntries, lookup?_filter hn]
  · exact filter_put_of_not (Bool.eq_false_of_not_eq_true hn) _ _

theorem sectionEntries_filter {keep : String × String → Bool}
    (h : ∀ x ∈ env, keep x = false → ∀ l, layer? x = some l →
      ∃ n ns, l.path = n :: ns ∧ isSection n = false) :
    sectionEntries (stack (layers (env.filter keep))) = sectionEntries (stack (layers env)) := by
  induction env using List.reverseRecOn with
  | nil => rfl
  | append_singleton env x ih =>
    have hrest := ih fun y hy => h y (List.mem_append_left _ hy)
    have hx := h x (List.mem_append_right _ List.mem_cons_self)
    rw [List.filter_append, layers_concat]
    by_cases hkeep : keep x = true
    · rw [List.filter_cons_of_pos hkeep, List.filter_nil, layers_concat]
      cases hl : layer? x with
      | none => rwa [Option.toList_none, List.append_nil, List.append_nil]
      | some l =>
        obtain ⟨n, ns, hpath⟩ := List.exists_cons_of_ne_nil (path_ne_nil_of_layer? hl)
        rw [Option.toList_some, sectionEntries_concat _ hpath, sectionEntries_concat _ hpath, hrest]
    · rw [List.filter_cons_of_neg hkeep, List.filter_nil, List.append_nil, hrest]
      cases hl : layer? x with
      | none => rw [Option.toList_none, List.append_nil]
      | some l =>
        obtain ⟨n, ns, hpath, hn⟩ := hx (Bool.eq_false_of_not_eq_true hkeep) l hl
        rw [Option.toList_some, sectionEntries_concat _ hpath, hn]
        rfl

/-- **Variables of no section** make no difference, whatever else is set. -/
theorem load_filter (file : Option ConfigFile) {keep : String × String → Bool}
    (h : ∀ x ∈ env, keep x = false → ∀ l, layer? x = some l →
      ∃ n ns, l.path = n :: ns ∧ isSection n = false) :
    Config.load file (env.filter keep) = Config.load file env := by
  have hreading : ∀ o bs, Increasing bs → ∀ env', Config.reading
      ((Setting.table o bs).overlay (stack (layers env'))) =
        Reading.setEntries (sections.map Slot.member) (overlayEntries
          (bs.filter fun e => isSection e.1) (sectionEntries (stack (layers env')))) .default := by
    intro o bs hbs env'
    have hpaths : ∀ l ∈ layers env', l.path ≠ [] := fun l hl => by
      obtain ⟨x, -, hx⟩ := List.mem_filterMap.mp hl
      exact path_ne_nil_of_layer? hx
    rw [stack_eq_table hpaths, table_overlay_table, reading_table, filter_overlayEntries hbs]
    rfl
  cases hfile : settingsOf file with
  | ok base =>
    obtain ⟨hordered, o, bs, rfl⟩ := table_of_settingsOf hfile
    have hbs := hordered.increasing_entries
    rw [load_eq hfile, load_eq hfile, Config.ofSetting, Config.ofSetting, hreading o bs hbs,
      hreading o bs hbs, sectionEntries_filter h]
  | error e =>
    cases file with
    | none => cases hfile
    | some f =>
      rw [settingsOf] at hfile
      rw [Config.load, Config.load, hfile]
      rfl

theorem head?_parameter (p : CommandLine.Parameter) :
    ∀ ns ∈ Variable.path? p.variableName, ns.head?.map isSection = some false := by
  cases p <;> decide +kernel

/-! ### Precedence -/

/-- Variables that go with a file: they are clear of each other, the configuration can be read from
each of them alone, and none leads into a section that is a list in the file. -/
structure Fitting (base : Setting) (env : List (String × String)) : Prop where
  clear : (layers env).Pairwise fun l l' => Clear l.path l'.path
  readable : ∀ l ∈ layers env, Readable Config.reading l.tree
  spares : ∀ l ∈ layers env, ∀ f ∈ fields, Spares f.path base l.tree

instance : Decidable (Fitting base env) :=
  decidable_of_iff
    (((layers env).Pairwise fun l l' => Clear l.path l'.path) ∧
      (∀ l ∈ layers env, Readable Config.reading l.tree) ∧
      ∀ l ∈ layers env, ∀ f ∈ fields, Spares f.path base l.tree)
    ⟨fun h => ⟨h.1, h.2.1, h.2.2⟩, fun h => ⟨h.clear, h.readable, h.spares⟩⟩

/-- A layer of no field, nor of anything above or below one, that is clear of other layers and leads
into no section that is a list. -/
structure Foreign (base : Setting) (ls : List Layer) (l : Layer) : Prop where
  fields : ∀ f ∈ fields, Clear l.path (names f.path)
  layers : ∀ l' ∈ ls, Clear l.path l'.path
  spares : ∀ f ∈ Fields.fields, Spares f.path base l.tree

/-- A configuration that the service can run with. -/
structure Usable (c : Config) : Prop where
  verification : 0 < c.auth.verificationTimeout
  discovery : 0 < c.auth.discoveryTimeout
  publicPaths : ∀ p ∈ c.auth.publicPaths, p.toList.head? = some '/'

/-- What a file and an environment amount to. -/
structure Resolved (file : Option ConfigFile) (env : List (String × String)) (base : Setting) :
    Prop where
  /-- Each field has its origin. -/
  layered : ∀ c, Config.load file env = .ok c → Layered base (layers env) c
  /-- A variable that names a field, in any case, gives it its value. -/
  named : ∀ c, Config.load file env = .ok c → ∀ f ∈ fields, ∀ x ∈ env,
    x.1.toLower = f.variable.toLower → f.reading (Inline.ofText x.2) = .ok (f.get c)
  /-- The order of the variables makes no difference. -/
  order : ∀ env', env.Perm env' → Config.load file env' = Config.load file env
  /-- A variable leaves the fields alone that it does not decide. -/
  others : ∀ x rest, env.Perm (x :: rest) → ∀ c c', Config.load file env = .ok c →
    Config.load file rest = .ok c' → ∀ f ∈ fields,
      (∀ l, layer? x = some l → ¬Decides f.path l.tree) → f.get c = f.get c'
  /-- Variables of no field make no difference where the file can be read. -/
  foreign : Readable Config.reading base → ∀ env' (keep : String × String → Bool),
    env'.filter keep = env → (∀ x ∈ env', keep x = false → ∀ l, layer? x = some l →
      Foreign base (layers env) l) → Config.load file env' = Config.load file env
  /-- The variables of the command line never make a difference. -/
  commandLine : ∀ env' (keep : String × String → Bool), (∀ x ∈ env', keep x = false →
    ∃ p : CommandLine.Parameter, x.1.toLower = p.variableName.toLower) →
      Config.load file (env'.filter keep) = Config.load file env'
  /-- Only what makes a configuration unusable keeps it from being loaded. -/
  usable : Readable Config.reading base → ∃ c, Layered base (layers env) c ∧
    ∀ c', Config.load file env = .ok c' ↔ c' = c ∧ Usable c

theorem usable_iff : Usable c ↔ c.validate = .ok () := by
  rw [validate_eq_ok]
  exact ⟨fun h => ⟨h.verification, h.discovery, h.publicPaths⟩, fun h => ⟨h.1, h.2.1, h.2.2⟩⟩

theorem Foreign.not_named (h : Foreign base ls l) : ¬Named l.path :=
  fun ⟨f, hf, hprefix⟩ => (h.fields f hf).left hprefix

section Load

variable (hfile : settingsOf file = .ok base) (hdistinct : Distinct (layers env))
  (hspares : ∀ l ∈ layers env, ∀ f ∈ fields, Spares f.path base l.tree)
include hfile hdistinct hspares

theorem layered_of_load (h : Config.load file env = .ok c) : Layered base (layers env) c := by
  obtain ⟨hordered, o, bs, rfl⟩ := table_of_settingsOf hfile
  rw [load_eq hfile] at h
  exact layered_of_reading hordered hdistinct hspares (ofSetting_eq_ok.mp h).1

theorem load_of_readable (hbase : Readable Config.reading base)
    (hread : ∀ l ∈ layers env, Readable Config.reading l.tree) :
    ∃ c, Layered base (layers env) c ∧ Config.load file env = (fun _ => c) <$> c.validate := by
  obtain ⟨hordered, o, bs, rfl⟩ := table_of_settingsOf hfile
  obtain ⟨c, hc⟩ := readable_layers hordered hbase hread
  refine ⟨c, layered_of_reading hordered hdistinct hspares hc, ?_⟩
  rw [load_eq hfile, ofSetting_of_reading hc]

end Load

theorem Fitting.distinct (h : Fitting base env) : Distinct (layers env) := by
  refine h.clear.imp ?_
  exact fun hclear _ => hclear

theorem Fitting.rest (h : Fitting base env) {x : String × String} {rest : List (String × String)}
    (hperm : env.Perm (x :: rest)) : Fitting base rest := by
  have hlayers : (layers rest).Sublist (layers (x :: rest)) :=
    (List.sublist_cons_self x rest).filterMap _
  have hmem : ∀ l ∈ layers rest, l ∈ layers env := fun l hl =>
    (hperm.filterMap layer?).mem_iff.mpr (hlayers.subset hl)
  have hclear := ((hperm.filterMap layer?).pairwise_iff fun h => Clear.symm h).mp h.clear
  exact ⟨hclear.sublist hlayers, fun l hl => h.readable l (hmem l hl), fun l hl => h.spares l (hmem l hl)⟩

theorem Fitting.distinct_foreign (h : Fitting base env) {env' : List (String × String)}
    {keep : String × String → Bool} (hkeep : env'.filter keep = env)
    (hforeign : ∀ x ∈ env', keep x = false → ∀ l, layer? x = some l → Foreign base (layers env) l) :
    Distinct (layers env') := by
  have hmem : ∀ x ∈ env', keep x = true → ∀ l, layer? x = some l → l ∈ layers env := fun x hx hk l hl =>
    List.mem_filterMap.mpr ⟨x, hkeep ▸ List.mem_filter.mpr ⟨hx, hk⟩, hl⟩
  have hclear := List.pairwise_filterMap.mp h.clear
  rw [← hkeep, List.pairwise_filter] at hclear
  refine List.pairwise_filterMap.mpr (hclear.imp_of_mem fun {x y} hx hy hboth l hl l' hl' hnamed => ?_)
  cases hkx : keep x with
  | false =>
    have hl := hforeign x hx hkx l hl
    cases hky : keep y with
    | false =>
      have hl' := hforeign y hy hky l' hl'
      exact absurd hnamed (not_or.mpr ⟨hl.not_named, hl'.not_named⟩)
    | true => exact hl.layers l' (hmem y hy hky l' hl')
  | true =>
    cases hky : keep y with
    | false => exact ((hforeign y hy hky l' hl').layers l (hmem x hx hkx l hl)).symm
    | true => exact hboth hkx hky l hl l' hl'

theorem exists_parameter_section {x : String × String} {p : CommandLine.Parameter}
    (hp : x.1.toLower = p.variableName.toLower) (hl : layer? x = some l) :
    ∃ n ns, l.path = n :: ns ∧ isSection n = false := by
  obtain ⟨ns, hns, rfl⟩ := Option.map_eq_some_iff.mp hl
  have hhead := head?_parameter p ns ((path?_eq_of_toLower_eq hp).symm.trans hns)
  obtain ⟨n, ns, rfl⟩ := List.exists_cons_of_ne_nil (path?_ne_nil hns)
  exact ⟨n, ns, rfl, Option.some.inj hhead⟩

section Filter

variable {env' : List (String × String)} {keep : String × String → Bool}
  (hkeep : env'.filter keep = env)
include hkeep

theorem mem_layers_of_filter (hl : l ∈ layers env) : l ∈ layers env' := by
  rw [← hkeep] at hl
  exact (List.filter_sublist.filterMap _).subset hl

theorem mem_layers_or_foreign
    (hforeign : ∀ x ∈ env', keep x = false → ∀ l, layer? x = some l → Foreign base (layers env) l)
    (hl : l ∈ layers env') : l ∈ layers env ∨ Foreign base (layers env) l := by
  obtain ⟨x, hx, hl⟩ := List.mem_filterMap.mp hl
  cases hk : keep x with
  | false => exact Or.inr (hforeign x hx hk l hl)
  | true => exact Or.inl (List.mem_filterMap.mpr ⟨x, hkeep ▸ List.mem_filter.mpr ⟨hx, hk⟩, hl⟩)

end Filter

section Fitting

variable (hfile : settingsOf file = .ok base) (hfit : Fitting base env)
include hfile hfit

theorem layered_of_fitting (h : Config.load file env = .ok c) : Layered base (layers env) c :=
  layered_of_load hfile hfit.distinct hfit.spares h

theorem reading_variable (h : Config.load file env = .ok c) {f : Field} (hf : f ∈ fields)
    {x : String × String} (hx : x ∈ env) (hname : x.1.toLower = f.variable.toLower) :
    f.reading (Inline.ofText x.2) = .ok (f.get c) := by
  have hpath := (path?_eq_of_toLower_eq hname).trans (path?_variable f hf)
  have hl := mem_layers hx hpath
  obtain ⟨b, hb⟩ := (readable_nest _ _ f hf).mp (hfit.readable _ hl)
  have hdecides := decides_nest (o := .environment) f.path fun o es heq =>
    flat_fields f hf o es ⟨b, heq ▸ hb⟩
  have htold := (layered_of_fitting hfile hfit h).layer f hf _ hl hdecides
  rw [Layer.tree, field?_nest] at htold
  exact htold

theorem load_perm {env' : List (String × String)} (hperm : env.Perm env') :
    Config.load file env' = Config.load file env := by
  have hstack : stack (layers env) = stack (layers env') :=
    stack_perm (hperm.filterMap layer?) hfit.clear
  rw [load_eq hfile, load_eq hfile, hstack]

/-- A field keeps its value when a variable is left out that does not decide it. -/
theorem get_of_rest {x : String × String} {rest : List (String × String)}
    (hperm : env.Perm (x :: rest)) (h : Config.load file env = .ok c)
    (h' : Config.load file rest = .ok c') {f : Field} (hf : f ∈ fields)
    (hx : ∀ l, layer? x = some l → ¬Decides f.path l.tree) : f.get c = f.get c' := by
  refine (layered_of_fitting hfile hfit h).get_eq
    (layered_of_fitting hfile (hfit.rest hperm) h') hf ?_
  intro l hd
  rw [layers, (hperm.filterMap layer?).mem_iff, List.mem_filterMap, List.exists_mem_cons_iff]
  constructor
  · rintro (hl | hl)
    · exact absurd hd (hx l hl)
    · exact List.mem_filterMap.mpr hl
  · exact fun hl => Or.inr (List.mem_filterMap.mp hl)

/-- **Foreign variables make no difference**, as both configurations have all fields from the same
layers. -/
theorem load_foreign (hbase : Readable Config.reading base) {env' : List (String × String)}
    {keep : String × String → Bool} (hkeep : env'.filter keep = env)
    (hforeign : ∀ x ∈ env', keep x = false → ∀ l, layer? x = some l → Foreign base (layers env) l) :
    Config.load file env' = Config.load file env := by
  have hmem : ∀ l ∈ layers env', l ∈ layers env ∨ Foreign base (layers env) l :=
    fun l hl => mem_layers_or_foreign hkeep hforeign hl
  obtain ⟨c, hc, hload⟩ := load_of_readable hfile hfit.distinct hfit.spares hbase hfit.readable
  obtain ⟨c', hc', hload'⟩ := load_of_readable hfile (hfit.distinct_foreign hkeep hforeign)
    (fun l hl => (hmem l hl).elim (hfit.spares l) (·.spares)) hbase
    (fun l hl => (hmem l hl).elim (hfit.readable l) fun h => readable_foreign h.fields _ _)
  have heq : c' = c := eq_of_fields fun f hf => hc'.get_eq hc hf fun l hd =>
    ⟨fun hl => (hmem l hl).resolve_right fun h => h.not_named (named_of_decides hf hd),
      mem_layers_of_filter hkeep⟩
  rw [hload, hload', heq]

theorem exists_load_iff_usable (hbase : Readable Config.reading base) :
    ∃ c, Layered base (layers env) c ∧
      ∀ c', Config.load file env = .ok c' ↔ c' = c ∧ Usable c := by
  obtain ⟨c, hc, hload⟩ := load_of_readable hfile hfit.distinct hfit.spares hbase hfit.readable
  refine ⟨c, hc, fun c' => ?_⟩
  rw [hload, map_eq_ok, usable_iff]
  constructor
  · rintro ⟨_, hvalid, rfl⟩
    exact ⟨rfl, hvalid⟩
  · rintro ⟨rfl, hvalid⟩
    exact ⟨(), hvalid, rfl⟩

end Fitting

/-- **Precedence of settings.** -/
theorem load_precedence (hfile : settingsOf file = .ok base) (hfit : Fitting base env) :
    Resolved file env base where
  layered _ h := layered_of_fitting hfile hfit h
  named _ h _ hf _ hx hname := reading_variable hfile hfit h hf hx hname
  order _ hperm := load_perm hfile hfit hperm
  others _ _ hperm _ _ h h' _ hf hx := get_of_rest hfile hfit hperm h h' hf hx
  foreign hbase _ _ hkeep hforeign := load_foreign hfile hfit hbase hkeep hforeign
  commandLine _ _ h := load_filter file fun x hx hk _ hl =>
    have ⟨_, hp⟩ := h x hx hk
    exists_parameter_section hp hl
  usable hbase := exists_load_iff_usable hfile hfit hbase

/-- A file that sets the listener, and variables, one of which sets the port and one of which the
command line reads. -/
theorem load_precedence_listener :
    let file := some ⟨"config.yaml", some "server:\n  host: h.example\n  port: 9090\n"⟩
    let env := [("ror_auth_server__port", "8081"), ("ROR_AUTH_PORT", "1")]
    ∃ base, settingsOf file = .ok base ∧ Fitting base env ∧ Readable Config.reading base ∧
      Resolved file env base ∧
      (Config.load file env).toOption.map (·.server) = some ⟨"h.example", 8081⟩ := by
  intro file env
  have hfit : (settingsOf file).toOption.any
      (fun base => decide (Fitting base env ∧ Readable Config.reading base)) = true := by
    decide +kernel
  cases hfile : settingsOf file with
  | error e =>
    rw [hfile] at hfit
    cases hfit
  | ok base =>
    rw [hfile] at hfit
    obtain ⟨hfit, hread⟩ := of_decide_eq_true hfit
    exact ⟨base, rfl, hfit, hread, load_precedence hfile hfit, by decide +kernel⟩

/-- A variable that leads into a section that is a list takes the whole list with it; one that leads
below a field makes the configuration unreadable; and one of no field can put a table in the place
of a section that cannot be read. -/
theorem not_forall_resolved :
    ((Config.load (some ⟨"config.yaml", some "server: [h.example, 9090]\n"⟩) []).toOption.map
        (·.server) = some ⟨"h.example", 9090⟩ ∧
      (Config.load (some ⟨"config.yaml", some "server: [h.example, 9090]\n"⟩)
        [("ROR_AUTH_SERVER__PORT", "8081")]).toOption.map (·.server) = some ⟨"0.0.0.0", 8081⟩) ∧
    ((Config.load none []).toOption = some .default ∧
      (Config.load none [("ROR_AUTH_SERVER__PORT__X", "1")]).toOption = none) ∧
    ((Config.load (some ⟨"config.yaml", some "server: 5\n"⟩) []).toOption = none ∧
      (Config.load (some ⟨"config.yaml", some "server: 5\n"⟩)
        [("ROR_AUTH_SERVER__FOO", "1")]).toOption = some .default) := by
  decide +kernel

end TokenGate.Proofs.Settings.Precedence
