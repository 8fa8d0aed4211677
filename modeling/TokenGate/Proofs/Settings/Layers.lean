import TokenGate.Proofs.Settings.Records
import TokenGate.Proofs.Settings.Sources
import Mathlib.Data.List.Pairwise
import Mathlib.Data.List.Induction

/-! # Settings in layers

A path leads through tables by the names of their entries, and through lists by the indices of their
items. A layer that decides what is at the end of a path has the last word there
(`field?_overlay_of_decides`). One that does not leaves it as it is, as long as it does not put a
table in the place of a list on the way (`field?_overlay_of_not_decides`). Two settings whose paths
do not lead on from each other can be laid over others in either order (`overlay_nest_comm`). -/

/-! ## Paths -/

namespace TokenGate.Proofs.Settings.Layers

open TokenGate.Settings TokenGate.Settings.Setting TokenGate.Proofs.Settings.Entries
open TokenGate.Proofs.Settings.Records TokenGate.Proofs.Settings.Sources

/-- A path: the name of each part, and its index. -/
abbrev Path := List (String × Nat)

/-- The names on a path. -/
def names (path : Path) : List String := path.map Prod.fst

/-- The setting at the end of a path. -/
def field? : Path → Setting → Option Setting
  | [], s => some s
  | (n, i) :: path, s => (part? n i s).bind (field? path)

/-- A layer decides what is at the end of a path if its tables lead to something else than a table
there, or on the way. -/
def Decides : Path → Setting → Prop
  | [], .table _ _ => False
  | (n, _) :: path, .table _ es => ∃ s, lookup? n es = some s ∧ Decides path s
  | _, _ => True

/-- A layer has no table in the place of a list on the way of a path. -/
def Spares : Path → Setting → Setting → Prop
  | _ :: _, .list _ _, .table _ _ => False
  | (n, _) :: path, .table _ bs, .table _ es =>
    ∀ b ∈ lookup? n bs, ∀ s ∈ lookup? n es, Spares path b s
  | _, _, _ => True

instance decidableSpares : (path : Path) → (b l : Setting) → Decidable (Spares path b l)
  | [], _, _ => isTrue trivial
  | _ :: _, .scalar _ _, _ => isTrue trivial
  | _ :: _, .list _ _, .scalar _ _ => isTrue trivial
  | _ :: _, .list _ _, .list _ _ => isTrue trivial
  | _ :: _, .list _ _, .table _ _ => isFalse id
  | _ :: _, .table _ _, .scalar _ _ => isTrue trivial
  | _ :: _, .table _ _, .list _ _ => isTrue trivial
  | (n, _) :: path, .table _ bs, .table _ es =>
    have := decidableSpares path
    inferInstanceAs (Decidable (∀ b ∈ lookup? n bs, ∀ s ∈ lookup? n es, Spares path b s))

/-- Whether a setting, if there is one, is a table. -/
def IsTable (s : Option Setting) : Prop := ∃ o es, s = some (.table o es)

variable {path : Path} {b l l' s : Setting} {o : Origin}

/-! ### The end of a path -/

theorem field?_append (path : Path) (n : String) (i : Nat) (s : Setting) :
    field? (path ++ [(n, i)]) s = (field? path s).bind (part? n i) := by
  induction path generalizing s with
  | nil => simp [field?]
  | cons p path ih =>
    rw [List.cons_append, field?, field?, Option.bind_assoc]
    exact congrArg _ (funext ih)

theorem decides_or_isTable (path : Path) (l : Setting) : Decides path l ∨ ∃ o es, l = .table o es := by
  cases l with
  | scalar => cases path <;> exact Or.inl trivial
  | list => cases path <;> exact Or.inl trivial
  | table o es => exact Or.inr ⟨o, es, rfl⟩

theorem field?_of_not_decides (h : ¬Decides path l) : field? path l = none ∨ IsTable (field? path l) := by
  induction path generalizing l with
  | nil =>
    obtain ⟨o, es, rfl⟩ := (decides_or_isTable [] l).resolve_left h
    exact Or.inr ⟨o, es, rfl⟩
  | cons p path ih =>
    obtain ⟨o, es, rfl⟩ := (decides_or_isTable _ l).resolve_left h
    rw [field?, part?]
    cases hs : lookup? p.1 es with
    | none => exact Or.inl rfl
    | some s => exact ih fun hd => h ⟨s, hs, hd⟩

/-- **A layer that decides** what is at the end of a path has the last word. -/
theorem field?_overlay_of_decides (hl : Ordered l) (h : Decides path l) (b : Setting) :
    Decides path (b.overlay l) ∧ field? path (b.overlay l) = field? path l := by
  induction path generalizing b l with
  | nil =>
    rcases overlay_cases b l with heq | ⟨_, _, _, _, rfl, rfl⟩
    · rw [heq]
      exact ⟨h, rfl⟩
    · exact absurd h id
  | cons p path ih =>
    rcases overlay_cases b l with heq | ⟨o, bs, o', es, rfl, rfl⟩
    · rw [heq]
      exact ⟨h, rfl⟩
    obtain ⟨s, hs, hd⟩ := h
    have hlookup := lookup?_overlayEntries hl.increasing_entries p.1 bs
    rw [hs] at hlookup
    rw [table_overlay_table, field?, field?, part?, part?, hs, hlookup]
    cases hb : lookup? p.1 bs with
    | none =>
      rw [hb] at hlookup
      exact ⟨⟨s, hlookup, hd⟩, rfl⟩
    | some t =>
      rw [hb] at hlookup
      obtain ⟨hdecides, hfield⟩ := ih (hl.of_lookup? hs) hd t
      exact ⟨⟨_, hlookup, hdecides⟩, hfield⟩

theorem decides_of_overlay (hl : Ordered l) (h : Decides path (b.overlay l)) :
    Decides path b ∨ Decides path l := by
  induction path generalizing b l with
  | nil =>
    rcases overlay_cases b l with heq | ⟨_, _, _, _, rfl, rfl⟩
    · exact Or.inr (heq ▸ h)
    · rw [table_overlay_table] at h
      exact absurd h id
  | cons p path ih =>
    rcases overlay_cases b l with heq | ⟨o, bs, o', es, rfl, rfl⟩
    · exact Or.inr (heq ▸ h)
    rw [table_overlay_table] at h
    obtain ⟨s, hs, hd⟩ := h
    rw [lookup?_overlayEntries hl.increasing_entries] at hs
    cases hb : lookup? p.1 bs with
    | none =>
      rw [hb, none_overlay?] at hs
      exact Or.inr ⟨s, hs, hd⟩
    | some t =>
      cases hes : lookup? p.1 es with
      | none =>
        rw [hb, hes] at hs
        cases hs
        exact Or.inl ⟨_, hb, hd⟩
      | some u =>
        rw [hb, hes] at hs
        cases hs
        exact (ih (hl.of_lookup? hes) hd).imp (fun h => ⟨t, hb, h⟩) fun h => ⟨u, hes, h⟩

/-- **A layer that does not decide** what is at the end of a path leaves it as it is, or makes it a
table. -/
theorem field?_overlay_of_not_decides (hl : Ordered l) (h : ¬Decides path l) (hspare : Spares path b l) :
    field? path (b.overlay l) = field? path b ∨ IsTable (field? path (b.overlay l)) := by
  induction path generalizing b l with
  | nil =>
    obtain ⟨o', es, rfl⟩ := (decides_or_isTable _ l).resolve_left h
    rcases overlay_cases b (.table o' es) with heq | ⟨o, bs, o', es, rfl, heq⟩
    · exact Or.inr ⟨o', es, congrArg _ heq⟩
    · rw [heq, table_overlay_table]
      exact Or.inr ⟨_, _, rfl⟩
  | cons p path ih =>
    obtain ⟨o', es, rfl⟩ := (decides_or_isTable _ l).resolve_left h
    cases b with
    | scalar o v =>
      rw [scalar_overlay]
      exact field?_of_not_decides h
    | list => exact absurd hspare id
    | table o bs =>
      rw [table_overlay_table, field?, field?, part?, part?,
        lookup?_overlayEntries hl.increasing_entries]
      cases hes : lookup? p.1 es with
      | none => exact Or.inl (by rw [overlay?_none])
      | some u =>
        have hu : ¬Decides path u := fun hd => h ⟨u, hes, hd⟩
        cases hb : lookup? p.1 bs with
        | none => exact field?_of_not_decides hu
        | some t => exact ih (hl.of_lookup? hes) hu (hspare t hb u hes)

/-- A layer in layers has no table in the place of a list if none of them has. -/
theorem spares_overlay (hl' : Ordered l') (h : Spares path b l) (h' : Spares path b l') :
    Spares path b (l.overlay l') := by
  induction path generalizing b l l' with
  | nil => cases b <;> trivial
  | cons p path ih =>
    rcases overlay_cases l l' with heq | ⟨o, es, o', es', rfl, rfl⟩
    · rwa [heq]
    rw [table_overlay_table]
    cases b with
    | scalar => trivial
    | list => exact h
    | table _ bs =>
      intro t ht u hu
      rw [Option.mem_def] at hu
      rw [lookup?_overlayEntries hl'.increasing_entries] at hu
      cases hes : lookup? p.1 es with
      | none =>
        rw [hes, none_overlay?] at hu
        exact h' t ht u hu
      | some v =>
        cases hes' : lookup? p.1 es' with
        | none =>
          rw [hes, hes'] at hu
          cases hu
          exact h t ht _ hes
        | some v' =>
          rw [hes, hes'] at hu
          cases hu
          exact ih (hl'.of_lookup? hes') (h t ht v hes) (h' t ht v' hes')

/-! ### Tables that hold one setting -/

theorem field?_nest (path : Path) (s : Setting) : field? path (nest o s (names path)) = some s := by
  induction path with
  | nil => rfl
  | cons p path ih =>
    rw [names, List.map_cons, nest, field?, part?, lookup?, if_pos rfl]
    exact ih

theorem decides_nest (path : Path) (hs : ∀ o es, s ≠ .table o es) :
    Decides path (nest o s (names path)) := by
  induction path with
  | nil => exact (decides_or_isTable [] s).resolve_right fun ⟨o, es, h⟩ => hs o es h
  | cons p path ih => exact ⟨_, if_pos rfl, ih⟩

/-- A setting decides what is at the end of a path only from a place on the way. -/
theorem prefix_of_decides_nest {ns : List String} (h : Decides path (nest o s ns)) :
    ns <+: names path := by
  induction ns generalizing path with
  | nil => exact List.nil_prefix
  | cons n ns ih =>
    cases path with
    | nil => exact absurd h id
    | cons p path =>
      obtain ⟨t, ht, hd⟩ := h
      rw [lookup?] at ht
      split_ifs at ht with hn
      · cases ht
        exact List.cons_prefix_cons.mpr ⟨hn, ih hd⟩
      · cases ht

/-- The entries of a table. -/
def entries : Setting → List (String × Setting)
  | .table _ es => es
  | _ => []

@[simp] theorem entries_table (o : Origin) (es : List (String × Setting)) :
    entries (.table o es) = es := rfl

/-- A setting in the place of an earlier one, if there is one. -/
def place (b : Option Setting) (s : Setting) : Setting := (b.map (·.overlay s)).getD s

theorem overlay_single (b : Setting) (o : Origin) (n : String) (s : Setting) :
    b.overlay (.table o [(n, s)]) =
      .table o (put n (place (lookup? n (entries b)) s) (entries b)) := by
  cases b with
  | scalar => simp [overlay, entries, lookup?, place, put]
  | list => simp [overlay, entries, lookup?, place, put]
  | table o' bs =>
    rw [table_overlay_table, overlayEntries, overlayEntries, entries]
    cases lookup? n bs <;> rfl

/-- **Settings apart from each other** can be laid over others in any order. -/
theorem overlay_nest_comm {ns ns' : List String} (h : ¬ns <+: ns') (h' : ¬ns' <+: ns)
    (b s s' : Setting) : (b.overlay (nest o s ns)).overlay (nest o s' ns') =
      (b.overlay (nest o s' ns')).overlay (nest o s ns) := by
  induction ns generalizing b ns' with
  | nil => exact absurd List.nil_prefix h
  | cons n ns ih =>
    cases ns' with
    | nil => exact absurd List.nil_prefix h'
    | cons n' ns' =>
      simp only [nest, overlay_single, entries_table]
      by_cases hn : n = n'
      · subst hn
        have hrest := ih (fun hp => h (List.cons_prefix_cons.mpr ⟨rfl, hp⟩))
          fun hp => h' (List.cons_prefix_cons.mpr ⟨rfl, hp⟩)
        simp only [lookup?_put_self, put_put]
        cases lookup? n (entries b) with
        | none =>
          have hnone := hrest (.scalar o .unit)
          simp only [scalar_overlay] at hnone
          exact congrArg (fun t => Setting.table o (put n t (entries b))) hnone
        | some t => exact congrArg (fun t => Setting.table o (put n t (entries b))) (hrest t)
      · rw [lookup?_put_of_ne hn, lookup?_put_of_ne (Ne.symm hn), put_comm hn]

end TokenGate.Proofs.Settings.Layers

/-! ## The environment as layers

The variables of an environment that are settings are layers, each of which has its value at a path.
Where two paths are clear of each other, so that neither leads on from the other, the order of the
layers makes no difference (`stack_perm`). A layer that is clear of all later ones has the last word
on what it decides (`field?_stack_of_decides`). -/

namespace TokenGate.Proofs.Settings.Environment

open TokenGate.Settings TokenGate.Settings.Setting TokenGate.Proofs.Settings.Entries
open TokenGate.Proofs.Settings.Layers TokenGate.Proofs.Settings.Sources

/-- A setting of the environment: where it is put, and its value. -/
structure Layer where
  path : List String
  value : Setting
  ordered : Ordered value

/-- The tables that hold the value of a layer at its path. -/
def Layer.tree (l : Layer) : Setting := nest .environment l.value l.path

/-- The layer that a variable is, if its name is that of a setting. -/
def layer? (x : String × String) : Option Layer :=
  (Variable.path? x.1).map fun path => ⟨path, Inline.ofText x.2, ordered_ofText x.2⟩

/-- The layers of an environment. -/
def layers (environment : List (String × String)) : List Layer := environment.filterMap layer?

/-- Layers over each other, and over a table without entries. -/
def stack (ls : List Layer) : Setting := ls.foldl (·.overlay ·.tree) (.table .environment [])

/-- Neither of two paths leads on from the other. -/
structure Clear (ns ns' : List String) : Prop where
  left : ¬ns <+: ns'
  right : ¬ns' <+: ns

variable {ls ls' later : List Layer} {l l' : Layer} {path : Path} {ns ns' : List String}

instance : Decidable (Clear ns ns') :=
  decidable_of_iff (¬ns <+: ns' ∧ ¬ns' <+: ns) ⟨fun h => ⟨h.1, h.2⟩, fun h => ⟨h.left, h.right⟩⟩

theorem Clear.symm (h : Clear ns ns') : Clear ns' ns := ⟨h.right, h.left⟩

/-! ### The layers of an environment -/

theorem ofEnvironment_eq (environment : List (String × String)) :
    Variable.ofEnvironment environment = stack (layers environment) := by
  rw [stack, layers, List.foldl_filterMap, Variable.ofEnvironment]
  congr 1
  funext s x
  obtain ⟨name, value⟩ := x
  simp only [layer?, Variable.setting?]
  cases Variable.path? name <;> rfl

theorem layers_concat (environment : List (String × String)) (x : String × String) :
    layers (environment ++ [x]) = layers environment ++ (layer? x).toList := by
  rw [layers, layers, List.filterMap_append, List.filterMap_cons]
  cases layer? x <;> rfl

theorem mem_layers {environment : List (String × String)} {x : String × String}
    (hx : x ∈ environment) {ns : List String} (hpath : Variable.path? x.1 = some ns) :
    ⟨ns, Inline.ofText x.2, ordered_ofText x.2⟩ ∈ layers environment :=
  List.mem_filterMap.mpr ⟨x, hx, by rw [layer?, hpath]; rfl⟩

theorem path_ne_nil_of_layer? {x : String × String} (h : layer? x = some l) : l.path ≠ [] := by
  obtain ⟨ns, hns, rfl⟩ := Option.map_eq_some_iff.mp h
  exact path?_ne_nil hns

theorem Layer.ordered_tree (l : Layer) : Ordered l.tree := ordered_nest l.ordered _

theorem stack_concat (ls : List Layer) (l : Layer) : stack (ls ++ [l]) = (stack ls).overlay l.tree := by
  rw [stack, List.foldl_concat]
  rfl

theorem ordered_stack (ls : List Layer) : Ordered (stack ls) := by
  induction ls using List.reverseRecOn with
  | nil => exact ordered_empty _
  | append_singleton ls l ih =>
    rw [stack_concat]
    exact ordered_overlay ih l.ordered_tree

/-! ### The order of layers -/

theorem overlay_tree_comm (h : Clear l.path l'.path) (b : Setting) :
    (b.overlay l.tree).overlay l'.tree = (b.overlay l'.tree).overlay l.tree :=
  overlay_nest_comm h.left h.right b _ _

/-- **The order of layers** makes no difference if their paths are clear of each other. -/
theorem stack_perm (hperm : ls.Perm ls') (h : ls.Pairwise fun l l' => Clear l.path l'.path) :
    stack ls = stack ls' := by
  let Swaps : Layer → Layer → Prop := fun l l' => ∀ b : Setting,
    (b.overlay l.tree).overlay l'.tree = (b.overlay l'.tree).overlay l.tree
  have : Std.Symm Swaps := ⟨fun _ _ h b => (h b).symm⟩
  have hswaps : ls.Pairwise Swaps := h.imp fun hclear => overlay_tree_comm hclear
  have hall := hswaps.forall_of_forall fun _ _ _ => rfl
  exact hperm.foldl_eq' (fun l hl l' hl' b => hall hl hl' b) _

/-- A layer that is clear of later ones can be laid over them. -/
theorem foldl_overlay_clear (h : ∀ l' ∈ later, Clear l.path l'.path) (b : Setting) :
    later.foldl (·.overlay ·.tree) (b.overlay l.tree) =
      (later.foldl (·.overlay ·.tree) b).overlay l.tree := by
  induction later generalizing b with
  | nil => rfl
  | cons l' later ih =>
    obtain ⟨hl', hlater⟩ := List.forall_mem_cons.mp h
    rw [List.foldl_cons, List.foldl_cons, overlay_tree_comm hl', ih hlater]

/-- **A layer that decides** what is at the end of a path has the last word if it is clear of later
ones. -/
theorem field?_stack_of_decides (hclear : ∀ l' ∈ later, Clear l.path l'.path)
    (h : Decides path l.tree) (ls : List Layer) :
    Decides path (stack (ls ++ l :: later)) ∧
      field? path (stack (ls ++ l :: later)) = field? path l.tree := by
  rw [stack, List.foldl_append, List.foldl_cons, foldl_overlay_clear hclear]
  exact field?_overlay_of_decides l.ordered_tree h _

theorem not_decides_stack (h : ∀ l ∈ ls, ¬Decides path l.tree) : ¬Decides path (stack ls) := by
  induction ls using List.reverseRecOn with
  | nil =>
    cases path with
    | nil => exact id
    | cons p path => exact fun ⟨_, hs, _⟩ => by cases hs
  | append_singleton ls l ih =>
    rw [stack_concat]
    intro hd
    rcases decides_of_overlay l.ordered_tree hd with hd | hd
    · exact ih (fun l' hl' => h l' (List.mem_append_left _ hl')) hd
    · exact h l (List.mem_append_right _ List.mem_cons_self) hd

theorem spares_stack {o : Origin} {bs : List (String × Setting)}
    (h : ∀ l ∈ ls, Spares path (.table o bs) l.tree) : Spares path (.table o bs) (stack ls) := by
  induction ls using List.reverseRecOn with
  | nil =>
    cases path with
    | nil => trivial
    | cons p path => exact fun _ _ _ hs => by cases hs
  | append_singleton ls l ih =>
    rw [stack_concat]
    exact spares_overlay l.ordered_tree (ih fun l' hl' => h l' (List.mem_append_left _ hl'))
      (h l (List.mem_append_right _ List.mem_cons_self))

end TokenGate.Proofs.Settings.Environment
