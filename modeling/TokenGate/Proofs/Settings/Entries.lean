import TokenGate.Settings.Setting
import Mathlib.Data.String.Basic
import Mathlib.Data.List.Perm.Basic

/-! # Entries under later ones

What is found under a name after entries have been laid over others is settled name by name: what is
found in both is one setting under the other, and what is found in one of them stays
(`lookup?_overlayEntries`). This is so as long as the names of every table are distinct, which all
settings keep to (`Ordered`). Entries of different names can be put in any order (`put_comm`). -/

namespace TokenGate.Proofs.Settings.Entries

open TokenGate.Settings TokenGate.Settings.Setting

variable {name n n' : String} {s t b l : Setting} {es later below : List (String × Setting)} {o : Origin}

/-! ### Entries in their places -/

theorem lookup?_put (name n : String) (s : Setting) (es : List (String × Setting)) :
    lookup? name (put n s es) = if n = name then some s else lookup? name es := by
  induction es with
  | nil => rfl
  | cons e es ih =>
    obtain ⟨k, t⟩ := e
    unfold put
    by_cases hnk : n = k
    · rw [if_pos hnk, lookup?, lookup?, ← hnk]
      split_ifs <;> rfl
    · rw [if_neg hnk]
      by_cases hlt : n < k
      · rw [if_pos hlt, lookup?]
      · rw [if_neg hlt, lookup?, ih, lookup?]
        by_cases hn : n = name
        · rw [if_neg fun h => hnk (hn.trans h.symm), if_pos hn, if_pos hn]
        · rw [if_neg hn, if_neg hn]

theorem lookup?_put_self (n : String) (s : Setting) (es : List (String × Setting)) :
    lookup? n (put n s es) = some s := by
  rw [lookup?_put, if_pos rfl]

theorem lookup?_put_of_ne (h : n ≠ name) (s : Setting) (es : List (String × Setting)) :
    lookup? name (put n s es) = lookup? name es := by
  rw [lookup?_put, if_neg h]

theorem put_put (n : String) (s t : Setting) (es : List (String × Setting)) :
    put n s (put n t es) = put n s es := by
  induction es with
  | nil => simp [put]
  | cons e es ih =>
    obtain ⟨k, u⟩ := e
    simp only [put]
    split_ifs with hnk hlt
    · simp [put]
    · simp [put]
    · simp [put, hnk, hlt, ih]

/-- **Entries of different names** can be put in any order. -/
theorem put_comm (h : n ≠ n') (s t : Setting) (es : List (String × Setting)) :
    put n s (put n' t es) = put n' t (put n s es) := by
  induction es with
  | nil => grind [put]
  | cons e es ih =>
    obtain ⟨k, u⟩ := e
    grind [put]

/-- The names increase strictly. -/
def Increasing (es : List (String × Setting)) : Prop := es.Pairwise fun e e' => e.1 < e'.1

theorem mem_put {e : String × Setting} (h : e ∈ put n s es) : e = (n, s) ∨ e ∈ es := by
  induction es with
  | nil => exact Or.inl (List.mem_singleton.mp h)
  | cons k es ih =>
    obtain ⟨k, t⟩ := k
    unfold put at h
    split_ifs at h
    · exact (List.mem_cons.mp h).imp_right (List.mem_cons_of_mem _)
    · exact List.mem_cons.mp h
    · rcases List.mem_cons.mp h with rfl | h
      · exact Or.inr List.mem_cons_self
      · exact (ih h).imp_right (List.mem_cons_of_mem _)

theorem increasing_put (h : Increasing es) (n : String) (s : Setting) : Increasing (put n s es) := by
  induction es with
  | nil => exact List.pairwise_singleton _ _
  | cons e es ih =>
    obtain ⟨k, t⟩ := e
    obtain ⟨hk, hes⟩ := List.pairwise_cons.mp h
    unfold put
    split_ifs with hnk hlt
    · exact List.pairwise_cons.mpr ⟨fun e he => hnk ▸ hk e he, hes⟩
    · refine List.pairwise_cons.mpr ⟨fun e he => ?_, h⟩
      rcases List.mem_cons.mp he with rfl | he
      · exact hlt
      · exact lt_trans hlt (hk e he)
    · refine List.pairwise_cons.mpr ⟨fun e he => ?_, ih hes⟩
      rcases mem_put he with rfl | he
      · exact lt_of_le_of_ne (not_lt.mp hlt) (Ne.symm hnk)
      · exact hk e he

theorem mem_of_lookup? (h : lookup? name es = some s) : (name, s) ∈ es := by
  induction es with
  | nil => cases h
  | cons e es ih =>
    obtain ⟨k, t⟩ := e
    rw [lookup?] at h
    split_ifs at h with hk
    · cases h
      exact hk ▸ List.mem_cons_self
    · exact List.mem_cons_of_mem _ (ih h)

theorem lookup?_eq_none (h : ∀ e ∈ es, e.1 ≠ name) : lookup? name es = none := by
  induction es with
  | nil => rfl
  | cons e es ih =>
    rw [lookup?, if_neg (h e List.mem_cons_self)]
    exact ih fun e' he' => h e' (List.mem_cons_of_mem _ he')

theorem lookup?_of_increasing_cons (h : Increasing ((n, s) :: es)) : lookup? n es = none :=
  lookup?_eq_none fun e he => ((List.pairwise_cons.mp h).1 e he).ne'

theorem lookup?_of_mem (h : Increasing es) (hmem : (name, s) ∈ es) : lookup? name es = some s := by
  induction es with
  | nil => cases hmem
  | cons e es ih =>
    obtain ⟨k, t⟩ := e
    rw [lookup?]
    rcases List.mem_cons.mp hmem with heq | hmem
    · cases heq
      rw [if_pos rfl]
    · have hlt := (List.pairwise_cons.mp h).1 _ hmem
      rw [if_neg hlt.ne]
      exact ih (List.pairwise_cons.mp h).2 hmem

/-! ### Settings under later ones -/

theorem table_overlay_table (o o' : Origin) (below later : List (String × Setting)) :
    (Setting.table o below).overlay (.table o' later) = .table o' (overlayEntries below later) := by
  rw [overlay]

theorem scalar_overlay (o : Origin) (v : Scalar) (l : Setting) :
    (Setting.scalar o v).overlay l = l := by
  cases l <;> simp [overlay]

theorem overlay_cases (b l : Setting) :
    b.overlay l = l ∨ ∃ o bs o' es, b = .table o bs ∧ l = .table o' es := by
  cases l with
  | scalar o v => exact Or.inl (by simp [overlay])
  | list o items => exact Or.inl (by simp [overlay])
  | table o' es =>
    cases b with
    | scalar o v => exact Or.inl (scalar_overlay o v _)
    | list o items => exact Or.inl (by simp [overlay])
    | table o bs => exact Or.inr ⟨o, bs, o', es, rfl, rfl⟩

/-- A setting under a later one, where each of them may be missing. -/
def overlay? : Option Setting → Option Setting → Option Setting
  | b, none => b
  | none, some s => some s
  | some b, some s => some (b.overlay s)

@[simp] theorem overlay?_none (b : Option Setting) : overlay? b none = b := by
  cases b <;> rfl

@[simp] theorem none_overlay? (s : Option Setting) : overlay? none s = s := by
  cases s <;> rfl

theorem overlayEntries_cons (below : List (String × Setting)) (n : String) (s : Setting)
    (later : List (String × Setting)) : ∃ t, overlay? (lookup? n below) (some s) = some t ∧
      overlayEntries below ((n, s) :: later) = overlayEntries (put n t below) later := by
  rw [overlayEntries]
  cases lookup? n below with
  | none => exact ⟨s, rfl, rfl⟩
  | some b => exact ⟨b.overlay s, rfl, rfl⟩

/-- **Entries under later ones** are settled name by name. -/
theorem lookup?_overlayEntries (hlater : Increasing later) (name : String)
    (below : List (String × Setting)) : lookup? name (overlayEntries below later) =
      overlay? (lookup? name below) (lookup? name later) := by
  induction later generalizing below with
  | nil => rw [overlayEntries, lookup?, overlay?_none]
  | cons e later ih =>
    obtain ⟨n, s⟩ := e
    obtain ⟨t, ht, heq⟩ := overlayEntries_cons below n s later
    rw [heq, ih (List.pairwise_cons.mp hlater).2, lookup?_put, lookup?]
    by_cases hn : n = name
    · subst hn
      rw [if_pos rfl, if_pos rfl, lookup?_of_increasing_cons hlater, overlay?_none, ht]
    · rw [if_neg hn, if_neg hn]

/-! ### Some of the names -/

section Filter

variable {known : String → Bool}

theorem lookup?_filter (hn : known name = true) (es : List (String × Setting)) :
    lookup? name (es.filter fun e => known e.1) = lookup? name es := by
  induction es with
  | nil => rfl
  | cons e es ih =>
    obtain ⟨k, t⟩ := e
    rw [List.filter_cons, lookup?]
    split_ifs with hk hname hname
    · rw [lookup?, if_pos hname]
    · rw [lookup?, if_neg hname, ih]
    · exact absurd (hname ▸ hn) hk
    · exact ih

theorem filter_put_of_not (hn : known n = false) (s : Setting) (es : List (String × Setting)) :
    (put n s es).filter (fun e => known e.1) = es.filter fun e => known e.1 := by
  induction es with
  | nil => simp [put, hn]
  | cons e es ih =>
    obtain ⟨k, t⟩ := e
    unfold put
    split_ifs with hnk hlt
    · rw [List.filter_cons, List.filter_cons, ← hnk, hn]
      rfl
    · rw [List.filter_cons, hn]
      rfl
    · rw [List.filter_cons, List.filter_cons, ih]

theorem put_of_lt (h : ∀ e ∈ es, n < e.1) (s : Setting) : put n s es = (n, s) :: es := by
  cases es with
  | nil => rfl
  | cons e es =>
    have hlt := h e List.mem_cons_self
    rw [put, if_neg hlt.ne, if_pos hlt]

theorem filter_put (hes : Increasing es) (hn : known n = true) (s : Setting) :
    (put n s es).filter (fun e => known e.1) = put n s (es.filter fun e => known e.1) := by
  induction es with
  | nil => simp [put, hn]
  | cons e es ih =>
    obtain ⟨k, t⟩ := e
    obtain ⟨hk, hes⟩ := List.pairwise_cons.mp hes
    rw [put]
    split_ifs with hnk hlt
    · rw [List.filter_cons, List.filter_cons, if_pos hn, if_pos (hnk ▸ hn), put, if_pos hnk]
    · have hall : ∀ e ∈ ((k, t) :: es).filter (fun e => known e.1), n < e.1 := by
        intro e he
        rcases List.mem_cons.mp (List.mem_filter.mp he).1 with rfl | he
        · exact hlt
        · exact hlt.trans (hk e he)
      rw [List.filter_cons, if_pos hn, put_of_lt hall]
    · rw [List.filter_cons, List.filter_cons, ih hes]
      split_ifs
      · rw [put, if_neg hnk, if_neg hlt]
      · rfl

theorem filter_overlayEntries (hbelow : Increasing below) (later : List (String × Setting)) :
    (overlayEntries below later).filter (fun e => known e.1) =
      overlayEntries (below.filter fun e => known e.1) (later.filter fun e => known e.1) := by
  induction later generalizing below with
  | nil => rfl
  | cons e later ih =>
    obtain ⟨n, s⟩ := e
    rw [overlayEntries, ih (increasing_put hbelow _ _), List.filter_cons]
    split_ifs with hn
    · rw [filter_put hbelow hn, overlayEntries, lookup?_filter hn]
    · rw [filter_put_of_not (Bool.eq_false_of_not_eq_true hn)]

end Filter

/-! ### Trees whose tables are in order -/

/-- The entries of every table have distinct names in increasing order. -/
inductive Ordered : Setting → Prop
  | scalar (o : Origin) (v : Scalar) : Ordered (.scalar o v)
  | list (o : Origin) {items : List Setting} (each : ∀ s ∈ items, Ordered s) :
    Ordered (.list o items)
  | table (o : Origin) {entries : List (String × Setting)} (increasing : Increasing entries)
    (each : ∀ e ∈ entries, Ordered e.2) : Ordered (.table o entries)

theorem Ordered.increasing_entries (h : Ordered (.table o es)) : Increasing es := by
  cases h with
  | table _ hinc _ => exact hinc

theorem Ordered.of_lookup? (h : Ordered (.table o es)) (hs : lookup? name es = some s) :
    Ordered s := by
  cases h with
  | table _ _ heach => exact heach _ (mem_of_lookup? hs)

theorem Ordered.put (h : Ordered (.table o es)) (n : String) (hs : Ordered s) :
    Ordered (.table o (Setting.put n s es)) := by
  cases h with
  | table _ hinc heach =>
    refine .table o (increasing_put hinc n s) fun e he => ?_
    rcases mem_put he with rfl | he
    · exact hs
    · exact heach e he

theorem ordered_empty (o : Origin) : Ordered (.table o []) :=
  .table o List.Pairwise.nil fun _ he => by cases he

theorem ordered_overlay (hb : Ordered b) (hl : Ordered l) : Ordered (b.overlay l) := by
  induction hl generalizing b with
  | scalar o v => simpa [overlay] using Ordered.scalar o v
  | list o heach _ => simpa [overlay] using Ordered.list o heach
  | table o hinc heach ih =>
    rename_i later
    have hentries : ∀ below, Ordered (.table o below) →
        Ordered (.table o (overlayEntries below later)) := by
      clear hinc
      induction later with
      | nil => exact fun _ h => h
      | cons e later ih' =>
        intro below hbelow
        rw [overlayEntries]
        refine ih' (fun e he => heach e (List.mem_cons_of_mem _ he))
          (fun e he => ih e (List.mem_cons_of_mem _ he)) _ (hbelow.put _ ?_)
        cases hfound : lookup? e.1 below with
        | none => exact heach e List.mem_cons_self
        | some t => exact ih e List.mem_cons_self (hbelow.of_lookup? hfound)
    rcases overlay_cases b (.table o later) with heq | ⟨o', bs, o, es, rfl, heq⟩
    · rw [heq]
      exact .table o hinc heach
    · rw [table_overlay_table]
      cases hb with
      | table _ hinc' heach' => exact hentries _ (.table _ hinc' heach')

theorem ordered_nest (hs : Ordered s) (path : List String) : Ordered (nest o s path) := by
  induction path with
  | nil => exact hs
  | cons n path ih =>
    refine .table o (List.pairwise_singleton _ _) fun e he => ?_
    rw [List.mem_singleton.mp he]
    exact ih

end TokenGate.Proofs.Settings.Entries
