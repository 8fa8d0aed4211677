import TokenGate.Settings.Document
import TokenGate.Settings.Setting
import TokenGate.Proofs.Settings.Entries

/-! # Where settings come from

Files and variables give trees whose tables are in order, because every entry is put in its place.
The name of a variable is read without regard to case (`path?_eq_of_toLower_eq`), and the variables
of an environment are the layers that it consists of. -/

namespace TokenGate.Proofs.Settings.Sources

open TokenGate.Settings TokenGate.Settings.Setting TokenGate.Yaml TokenGate.Proofs.Settings.Entries

variable {o : Origin}

/-! ### Documents -/

section Document

open TokenGate.Settings.Document

mutual

theorem ordered_of_setting? : (n : Node) → {s : Setting} → setting? o n = some s → Ordered s
  | .scalar tag style text, s, h => by
    obtain ⟨v, -, rfl⟩ := Option.map_eq_some_iff.mp h
    exact .scalar o v
  | .sequence tag items, s, h => by
    rw [setting?] at h
    split_ifs at h
    obtain ⟨ss, hss, rfl⟩ := Option.map_eq_some_iff.mp h
    exact .list o (ordered_of_items? items hss)
  | .mapping tag entries, s, h => by
    rw [setting?] at h
    split_ifs at h
    obtain ⟨es, hes, rfl⟩ := Option.map_eq_some_iff.mp h
    exact ordered_of_entries? entries (ordered_empty o) hes

theorem ordered_of_items? : (ns : List Node) → {ss : List Setting} → items? o ns = some ss →
    ∀ s ∈ ss, Ordered s
  | [], ss, h => by
    cases h
    exact fun _ hs => by cases hs
  | n :: rest, ss, h => by
    rw [items?] at h
    obtain ⟨s, hs, h⟩ := Option.bind_eq_some_iff.mp h
    obtain ⟨ss', hss', h⟩ := Option.bind_eq_some_iff.mp h
    cases h
    exact List.forall_mem_cons.mpr ⟨ordered_of_setting? n hs, ordered_of_items? rest hss'⟩

theorem ordered_of_entries? : (ns : List (Node × Node)) → {done es : List (String × Setting)} →
    Ordered (.table o done) → entries? o done ns = some es → Ordered (.table o es)
  | [], done, es, hdone, h => by
    cases h
    exact hdone
  | (k, v) :: rest, done, es, hdone, h => by
    rw [entries?] at h
    obtain ⟨name, -, h⟩ := Option.bind_eq_some_iff.mp h
    obtain ⟨s, hs, h⟩ := Option.bind_eq_some_iff.mp h
    exact ordered_of_entries? rest (hdone.put name (ordered_of_setting? v hs)) h

end

/-- **The settings of a file** are a table in order. -/
theorem ordered_of_table? {n : Option Node} {s : Setting} (h : table? o n = some s) :
    Ordered s ∧ ∃ es, s = .table o es := by
  unfold table? at h
  split at h
  · cases h
    exact ⟨ordered_empty o, _, rfl⟩
  · cases h
    exact ⟨ordered_empty o, _, rfl⟩
  · obtain ⟨es, hes, rfl⟩ := Option.map_eq_some_iff.mp h
    exact ⟨ordered_of_entries? _ (ordered_empty o) hes, _, rfl⟩
  · cases h

end Document

/-! ### Values in one line -/

section Inline

open TokenGate.Settings.Inline

/-- The trees that are read with some fuel are in order. -/
structure Fueled (fuel : Nat) : Prop where
  value : ∀ cs s rest, value? fuel cs = some (s, rest) → Ordered s
  items : ∀ cs ss rest, items? fuel cs = some (ss, rest) → ∀ s ∈ ss, Ordered s
  entries : ∀ done cs es rest, Ordered (.table .environment done) →
    entries? fuel done cs = some (es, rest) → Ordered (.table .environment es)

variable {fuel : Nat}

theorem Fueled.value_succ (hf : Fueled fuel) (cs : List Char) (s : Setting) (rest : List Char)
    (h : value? (fuel + 1) cs = some (s, rest)) : Ordered s := by
  rw [value?] at h
  obtain ⟨⟨s', rest'⟩, hfound, heq⟩ := Option.map_eq_some_iff.mp h
  cases heq
  split at hfound
  · cases hfound
    exact .scalar _ _
  · cases hfound
    exact .scalar _ _
  · obtain ⟨⟨es, after⟩, hes, heq⟩ := Option.map_eq_some_iff.mp hfound
    cases heq
    exact hf.entries _ _ _ _ (ordered_empty _) hes
  · obtain ⟨⟨ss, after⟩, hss, heq⟩ := Option.map_eq_some_iff.mp hfound
    cases heq
    exact .list _ (hf.items _ _ _ hss)
  · obtain ⟨⟨text, after⟩, -, heq⟩ := Option.map_eq_some_iff.mp hfound
    cases heq
    exact .scalar _ _
  · cases hfound
    exact .scalar _ _
  · cases hfound
  · cases hfound
    exact .scalar _ _

theorem Fueled.items_succ (hf : Fueled fuel) (cs : List Char) (ss : List Setting) (rest : List Char)
    (h : items? (fuel + 1) cs = some (ss, rest)) : ∀ s ∈ ss, Ordered s := by
  unfold items? at h
  split at h
  · cases h
  · cases h
    exact fun _ hs => by cases hs
  · rename_i heq _
    cases heq
    obtain ⟨⟨v, after⟩, hv, h⟩ := Option.bind_eq_some_iff.mp h
    have hfirst := hf.value _ _ _ hv
    dsimp only at h
    split at h
    · obtain ⟨⟨vs, after'⟩, hvs, h⟩ := Option.bind_eq_some_iff.mp h
      cases h
      exact List.forall_mem_cons.mpr ⟨hfirst, hf.items _ _ _ hvs⟩
    · cases h
      exact List.forall_mem_singleton.mpr hfirst
    · cases h

theorem Fueled.entries_succ (hf : Fueled fuel) (done : List (String × Setting)) (cs : List Char)
    (es : List (String × Setting)) (rest : List Char) (hdone : Ordered (.table .environment done))
    (h : entries? (fuel + 1) done cs = some (es, rest)) : Ordered (.table .environment es) := by
  unfold entries? at h
  split at h
  · cases h
  · cases h
    exact hdone
  · rename_i heq _
    cases heq
    obtain ⟨⟨name, after⟩, -, h⟩ := Option.bind_eq_some_iff.mp h
    dsimp only at h
    split at h
    · obtain ⟨⟨v, after'⟩, hv, h⟩ := Option.bind_eq_some_iff.mp h
      have hput := hdone.put name (hf.value _ _ _ hv)
      dsimp only at h
      split at h
      · exact hf.entries _ _ _ _ hput h
      · cases h
        exact hput
      · cases h
    · cases h

theorem fueled (fuel : Nat) : Fueled fuel := by
  induction fuel with
  | zero =>
    exact ⟨fun _ _ _ h => (by cases h), fun _ _ _ h => (by cases h),
      fun _ _ _ _ _ h => (by cases h)⟩
  | succ fuel ih => exact ⟨ih.value_succ, ih.items_succ, ih.entries_succ⟩

/-- **The setting of a text** is in order. -/
theorem ordered_ofText (text : String) : Ordered (ofText text) := by
  unfold ofText
  dsimp only
  split
  · rename_i h
    exact (fueled _).value _ _ _ h
  · exact .scalar _ _

end Inline

/-! ### Names of variables -/

theorem toLower_cases (c : Char) : c.toLower = c ∨
    65 ≤ c.toNat ∧ c.toNat ≤ 90 ∧ c.toLower.toNat = c.toNat + 32 := by
  unfold Char.toLower
  split_ifs with h
  · right
    have h1 : 65 ≤ c.val.toNat := UInt32.le_iff_toNat_le.mp h.1
    have h2 : c.val.toNat ≤ 90 := UInt32.le_iff_toNat_le.mp h.2
    refine ⟨h1, h2, ?_⟩
    show (c.val + 32).toNat = c.val.toNat + 32
    have h32 : (32 : UInt32).toNat = 32 := rfl
    rw [UInt32.toNat_add, h32, Nat.mod_eq_of_lt (by omega)]
  · exact Or.inl rfl

theorem isBlank_toLower (c : Char) : Text.isBlank c.toLower = Text.isBlank c := by
  rcases toLower_cases c with h | ⟨h1, h2, h⟩
  · rw [h]
  · simp only [Text.isBlank, h]
    rw [Bool.eq_iff_iff]
    simp only [Bool.or_eq_true, Bool.and_eq_true, decide_eq_true_eq]
    omega

theorem eq_underscore_of_toLower {c : Char} (h : c.toLower = '_') : c = '_' := by
  rcases toLower_cases c with h' | ⟨h1, h2, h'⟩
  · rw [← h', h]
  · have : '_'.toNat = 95 := rfl
    rw [h] at h'
    omega

theorem map_toLower_trim (cs : List Char) :
    (Text.trim cs).map Char.toLower = Text.trim (cs.map Char.toLower) := by
  have hstart : ∀ cs : List Char, (Text.trimStart cs).map Char.toLower =
      Text.trimStart (cs.map Char.toLower) := by
    intro cs
    rw [Text.trimStart, Text.trimStart, List.dropWhile_map]
    congr 2
    funext c
    exact (isBlank_toLower c).symm
  rw [Text.trim, Text.trim, List.map_reverse, hstart, List.map_reverse, hstart]

theorem map_toLower_pointed (cs : List Char) :
    (Variable.pointed cs).map Char.toLower = Variable.pointed (cs.map Char.toLower) := by
  induction cs using Variable.pointed.induct with
  | case1 rest ih => exact congrArg ('.' :: ·) ih
  | case2 c rest h ih =>
    have hlower : ∀ rest', c.toLower = '_' → rest.map Char.toLower = '_' :: rest' → False := by
      intro rest' hc hrest
      cases rest with
      | nil => cases hrest
      | cons d rest =>
        obtain ⟨hd, -⟩ := List.cons.inj hrest
        exact h rest (eq_underscore_of_toLower hc) (by rw [eq_underscore_of_toLower hd])
    rw [Variable.pointed.eq_2 _ _ h, List.map_cons, List.map_cons, ih,
      Variable.pointed.eq_2 _ _ hlower]
  | case3 => rfl

/-- **The name of a variable** is read without regard to case. -/
theorem path?_eq_of_toLower_eq {name name' : String} (h : name.toLower = name'.toLower) :
    Variable.path? name = Variable.path? name' := by
  have hlower : name.toList.map Char.toLower = name'.toList.map Char.toLower := by
    rw [← String.toList_map, ← String.toList_map]
    exact congrArg String.toList h
  have htrim : (Text.trim name.toList).map Char.toLower =
      (Text.trim name'.toList).map Char.toLower := by
    rw [map_toLower_trim, map_toLower_trim, hlower]
  have hrest : ∀ n, (Text.trim (Variable.pointed ((Text.trim name.toList).drop n))).map Char.toLower =
      (Text.trim (Variable.pointed ((Text.trim name'.toList).drop n))).map Char.toLower := fun n => by
    rw [map_toLower_trim, map_toLower_trim, map_toLower_pointed, map_toLower_pointed, List.map_drop,
      List.map_drop, htrim]
  rw [Variable.path?, Variable.path?, Variable.afterMark?, Variable.afterMark?, List.map_take,
    List.map_take, htrim]
  split_ifs
  · rw [Option.bind_eq_bind, Option.bind_some, Option.bind_some, hrest]
  · rfl

theorem path?_ne_nil {name : String} {ns : List String} (h : Variable.path? name = some ns) :
    ns ≠ [] := by
  have hsplit : ∀ cs, Text.splitOn '.' cs ≠ [] := by
    intro cs
    cases cs with
    | nil => exact List.cons_ne_nil _ _
    | cons c rest =>
      rw [Text.splitOn]
      split_ifs
      · exact List.cons_ne_nil _ _
      · split <;> exact List.cons_ne_nil _ _
  obtain ⟨rest, -, h⟩ := Option.bind_eq_some_iff.mp h
  dsimp only at h
  split_ifs at h
  cases h
  exact fun hnil => hsplit _ (List.map_eq_nil_iff.mp hnil)

end TokenGate.Proofs.Settings.Sources
