import TokenGate.Json.Shape
import TokenGate.Proofs.Results
import Mathlib.Data.String.Basic

/-! # Members of values

A reader sorts the members of an object and keeps the last one of each name (`lookup?_sorted`), so
that the names of what it returns are distinct. A record is read from such members by setting one
after the other; the value that a field ends with is that of its member (`setMembers_reads`), and a
field without one keeps its default. -/

/-! ## Members and records -/

namespace TokenGate.Proofs.Json.Members

open TokenGate.Json TokenGate.Proofs.Results

variable {α β : Type}

/-- The value of the last member of a name. -/
def last? (name : String) : List (String × Json) → Option Json
  | [] => none
  | (n, v) :: rest => (last? name rest).or (if n = name then some v else none)

theorem eq_string_of_asString? {v : Json} {s : String} (h : v.asString? = some s) :
    v = .string s := by
  unfold Json.asString? at h
  split at h <;> cases h
  rfl

theorem eq_int_of_asInt64? {v : Json} {z : Int} (h : v.asInt64? = some z) : v = .int z := by
  unfold Json.asInt64? at h
  split at h
  · split_ifs at h
    cases h
    rfl
  · cases h

/-! ### Members in order -/

theorem lookup?_insert (name n : String) (v : Json) (ms : List (String × Json)) :
    lookup? name (Json.insert n v ms) = if n = name then some v else lookup? name ms := by
  induction ms with
  | nil => rfl
  | cons m ms ih =>
    obtain ⟨k, w⟩ := m
    unfold Json.insert
    by_cases hnk : n = k
    · rw [if_pos hnk, lookup?, lookup?, ← hnk]
      split_ifs <;> rfl
    · rw [if_neg hnk]
      by_cases hlt : n < k
      · rw [if_pos hlt, lookup?]
      · rw [if_neg hlt, lookup?, ih, lookup?]
        by_cases hn : n = name
        · rw [if_neg fun h => hnk (hn.trans h.symm), if_pos hn, if_pos hn]
        · rw [if_neg hn, if_neg hn]

theorem lookup?_foldl_insert (name : String) (ms done : List (String × Json)) :
    lookup? name (ms.foldl (fun done (n, v) => Json.insert n v done) done) =
      (last? name ms).or (lookup? name done) := by
  induction ms generalizing done with
  | nil => rfl
  | cons m ms ih =>
    rw [List.foldl_cons, ih, lookup?_insert, last?]
    split_ifs <;> cases last? name ms <;> rfl

/-- **Of repeated members the last one counts.** -/
theorem lookup?_sorted (name : String) (ms : List (String × Json)) :
    lookup? name (sorted ms) = last? name ms := by
  rw [sorted, lookup?_foldl_insert, lookup?, Option.or_none]

/-- The names increase strictly. -/
def Increasing (ms : List (String × Json)) : Prop := ms.Pairwise fun m m' => m.1 < m'.1

theorem fst_of_mem_insert {n : String} {v : Json} {ms : List (String × Json)} {m : String × Json}
    (h : m ∈ Json.insert n v ms) : m.1 = n ∨ m ∈ ms := by
  induction ms with
  | nil => exact Or.inl (by rw [List.mem_singleton.mp h])
  | cons k ms ih =>
    obtain ⟨k, w⟩ := k
    unfold Json.insert at h
    split_ifs at h
    · rcases List.mem_cons.mp h with rfl | h
      · exact Or.inl rfl
      · exact Or.inr (List.mem_cons_of_mem _ h)
    · rcases List.mem_cons.mp h with rfl | h
      · exact Or.inl rfl
      · exact Or.inr h
    · rcases List.mem_cons.mp h with rfl | h
      · exact Or.inr List.mem_cons_self
      · exact (ih h).imp_right (List.mem_cons_of_mem _)

theorem increasing_insert {ms : List (String × Json)} (h : Increasing ms) (n : String) (v : Json) :
    Increasing (Json.insert n v ms) := by
  induction ms with
  | nil => exact List.pairwise_singleton _ _
  | cons m ms ih =>
    obtain ⟨k, w⟩ := m
    obtain ⟨hk, hms⟩ := List.pairwise_cons.mp h
    unfold Json.insert
    split_ifs with hnk hlt
    · exact List.pairwise_cons.mpr ⟨fun m hm => hnk ▸ hk m hm, hms⟩
    · refine List.pairwise_cons.mpr ⟨fun m hm => ?_, h⟩
      rcases List.mem_cons.mp hm with rfl | hm
      · exact hlt
      · exact lt_trans hlt (hk m hm)
    · refine List.pairwise_cons.mpr ⟨fun m hm => ?_, ih hms⟩
      rcases fst_of_mem_insert hm with hm | hm
      · rw [hm]; exact lt_of_le_of_ne (not_lt.mp hlt) (Ne.symm hnk)
      · exact hk m hm

theorem increasing_sorted (ms : List (String × Json)) : Increasing (sorted ms) := by
  have hfold : ∀ (ms done : List (String × Json)), Increasing done →
      Increasing (ms.foldl (fun done (n, v) => Json.insert n v done) done) := by
    intro ms
    induction ms with
    | nil => exact fun _ h => h
    | cons m ms ih => exact fun _ h => ih _ (increasing_insert h _ _)
  exact hfold ms [] List.Pairwise.nil

theorem last?_eq_none {name : String} {ms : List (String × Json)} (h : ∀ m ∈ ms, m.1 ≠ name) :
    last? name ms = none := by
  induction ms with
  | nil => rfl
  | cons m ms ih =>
    rw [last?, ih fun m' hm' => h m' (List.mem_cons_of_mem _ hm'), if_neg (h m List.mem_cons_self)]
    rfl

theorem last?_append (name : String) (ms ms' : List (String × Json)) :
    last? name (ms ++ ms') = (last? name ms').or (last? name ms) := by
  induction ms with
  | nil => rw [List.nil_append, last?, Option.or_none]
  | cons m ms ih => rw [List.cons_append, last?, last?, ih, Option.or_assoc]

theorem last?_of_increasing {ms : List (String × Json)} (h : Increasing ms) (name : String) :
    last? name ms = lookup? name ms := by
  induction ms with
  | nil => rfl
  | cons m ms ih =>
    obtain ⟨k, v⟩ := m
    obtain ⟨hk, hms⟩ := List.pairwise_cons.mp h
    rw [last?, lookup?, ih hms]
    split_ifs with hname
    · -- All later names are greater, so none of them is this one.
      have hnone : last? name ms = none :=
        last?_eq_none fun m hm e => lt_irrefl _ (hname ▸ e ▸ hk m hm)
      rw [← ih hms, hnone]; rfl
    · exact Option.or_none

/-! ### Records -/

@[simp] theorem name_free (name : String) (inner : Shape β) (put : β → α → α) :
    (Member.free name inner put).name = name := rfl

@[simp] theorem name_needed (name : String) (inner : Shape β) (put : β → α → α) :
    (Member.needed name inner put).name = name := rfl

@[simp] theorem set_free {name : String} {inner : Shape β} {put : β → α → α} {v : Json}
    {a a' : α} : (Member.free name inner put).set v a = .ok a' ↔
      ∃ b, inner v = .ok b ∧ put b a = a' := map_eq_ok

@[simp] theorem set_needed {name : String} {inner : Shape β} {put : β → α → α} {v : Json}
    {a a' : α} : (Member.needed name inner put).set v a = .ok a' ↔
      ∃ b, inner v = .ok b ∧ put b a = a' := map_eq_ok

/-- The member `name` of a record is read by `inner` into the field `proj`, and no other member
touches that field. -/
structure Reads (fields : List (Member α)) (name : String) (inner : Shape β) (proj : α → β) :
    Prop where
  known : ∃ f ∈ fields, f.name = name
  set : ∀ f ∈ fields, f.name = name → ∀ v a a', f.set v a = .ok a' → inner v = .ok (proj a')
  keep : ∀ f ∈ fields, f.name ≠ name → ∀ v a a', f.set v a = .ok a' → proj a' = proj a

variable {fields : List (Member α)} {name : String} {inner : Shape β} {proj : α → β}

theorem setMembers_reads (hr : Reads fields name inner proj) {ms : List (String × Json)} {a a' : α}
    (h : Record.setMembers fields ms a = .ok a') :
    (∀ v, last? name ms = some v → inner v = .ok (proj a')) ∧
      (last? name ms = none → proj a' = proj a) := by
  induction ms generalizing a with
  | nil =>
    cases h
    exact ⟨fun v hv => (by cases hv), fun _ => rfl⟩
  | cons m ms ih =>
    obtain ⟨n, w⟩ := m
    rw [Record.setMembers] at h
    rw [last?]
    split at h
    · rename_i f hf
      obtain ⟨b, hb, h⟩ := bind_eq_ok.mp h
      have hmem := List.mem_of_find?_eq_some hf
      have hname : f.name = n := by simpa using List.find?_some hf
      obtain ⟨ih1, ih2⟩ := ih h
      cases hl : last? name ms with
      | some v => exact ⟨fun v' hv' => ih1 v' (hl.trans hv'), fun hn => by cases hn⟩
      | none =>
        rw [Option.none_or]
        split_ifs with hn
        · refine ⟨fun v hv => ?_, fun hn => by cases hn⟩
          cases hv
          rw [ih2 hl]
          exact hr.set f hmem (hname.trans hn) w a b hb
        · refine ⟨fun v hv => (by cases hv), fun _ => ?_⟩
          rw [ih2 hl]
          exact hr.keep f hmem (fun e => hn (hname.symm.trans e)) w a b hb
    · rename_i hf
      obtain ⟨f, hmem, hname⟩ := hr.known
      have hn : n ≠ name := by
        have := List.find?_eq_none.mp hf f hmem
        simp only [decide_eq_true_eq] at this
        exact fun e => this (hname.trans e.symm)
      rw [if_neg hn, Option.or_none]
      exact ih h

theorem any_iff_exists_lookup? {ms : List (String × Json)} :
    ms.any (·.1 = name) = true ↔ ∃ v, lookup? name ms = some v := by
  induction ms with
  | nil => simp [lookup?]
  | cons m ms ih =>
    obtain ⟨k, v⟩ := m
    rw [lookup?, List.any_cons, Bool.or_eq_true, decide_eq_true_eq]
    split_ifs with hk
    · exact iff_of_true (Or.inl hk) ⟨v, rfl⟩
    · rw [← ih]
      exact or_iff_right hk

/-- **A record that is read from an object has its fields from the members of their names.** -/
theorem shape_reads (hr : Reads fields name inner proj) {type : String} {start a : α}
    {ms : List (String × Json)} (hms : Increasing ms)
    (h : Record.shape type start fields (.object ms) = .ok a) :
    (∀ v, lookup? name ms = some v → inner v = .ok (proj a)) ∧
      (lookup? name ms = none → proj a = proj start) := by
  rw [Record.shape] at h
  obtain ⟨b, hb, h⟩ := bind_eq_ok.mp h
  split at h
  · cases h
  · cases h
    rw [← last?_of_increasing hms]
    exact setMembers_reads hr hb

theorem setMembers_of_found {f : Member α} {n : String} {v : Json} {a b : α}
    (hf : fields.find? (·.name = n) = some f) (hset : f.set v a = .ok b)
    (rest : List (String × Json)) :
    Record.setMembers fields ((n, v) :: rest) a = Record.setMembers fields rest b := by
  rw [Record.setMembers, hf]
  dsimp only
  rw [hset, ok_bind]

section Untouched

variable (h : ∀ f ∈ fields, ∀ v a b, f.set v a = .ok b → proj b = proj a)
include h

theorem setMembers_untouched {ms : List (String × Json)} {a b : α}
    (hset : Record.setMembers fields ms a = .ok b) : proj b = proj a := by
  induction ms generalizing a with
  | nil =>
    cases hset
    rfl
  | cons m ms ih =>
    obtain ⟨n, v⟩ := m
    rw [Record.setMembers] at hset
    split at hset
    · rename_i f hf
      obtain ⟨c, hc, hset⟩ := bind_eq_ok.mp hset
      exact (ih hset).trans (h f (List.mem_of_find?_eq_some hf) v a c hc)
    · exact ih hset

theorem setItems_untouched {expected : String} {items : List Json} {index : Nat} {a b : α}
    (hset : Record.setItems expected index fields items a = .ok b) : proj b = proj a := by
  induction fields generalizing items index a with
  | nil =>
    cases items with
    | nil =>
      cases hset
      rfl
    | cons v items => cases hset
  | cons f fields ih =>
    obtain ⟨hf, hfields⟩ := List.forall_mem_cons.mp h
    cases items with
    | nil =>
      rw [Record.setItems] at hset
      split_ifs at hset
      exact ih hfields hset
    | cons v items =>
      obtain ⟨c, hc, hset⟩ := bind_eq_ok.mp hset
      exact (ih hfields hset).trans (hf v a c hc)

/-- **A field that no member touches is that of the default**, whatever a record is read from. -/
theorem shape_untouched {type : String} {start a : α} {v : Json}
    (hread : Record.shape type start fields v = .ok a) : proj a = proj start := by
  unfold Record.shape at hread
  split at hread
  · obtain ⟨b, hb, hread⟩ := bind_eq_ok.mp hread
    split at hread
    · cases hread
    · cases hread
      exact setMembers_untouched h hb
  · exact setItems_untouched h hread
  · cases hread

end Untouched

theorem shape_required {type : String} {start a : α} {ms : List (String × Json)}
    (h : Record.shape type start fields (.object ms) = .ok a) {f : Member α} (hf : f ∈ fields)
    (hreq : f.required = true) : ∃ v, lookup? f.name ms = some v := by
  rw [Record.shape] at h
  obtain ⟨b, -, h⟩ := bind_eq_ok.mp h
  split at h
  · cases h
  · rename_i hmissing
    rw [Record.missing?, Option.map_eq_none_iff] at hmissing
    have := List.find?_eq_none.mp hmissing f hf
    refine any_iff_exists_lookup?.mp ?_
    simpa [hreq] using this

end TokenGate.Proofs.Json.Members

/-! ## Values that were written

The values that stand for lists, integers and texts are read as what they stand for. -/

namespace TokenGate.Proofs.Json.Shapes

open TokenGate.Json TokenGate.Proofs.Results

variable {α : Type}

theorem list_map {item : Shape α} {write : α → Json} {xs : List α}
    (h : ∀ x ∈ xs, item (write x) = .ok x) : Shape.list item (.array (xs.map write)) = .ok xs := by
  rw [Shape.list]
  induction xs with
  | nil => rfl
  | cons x xs ih =>
    obtain ⟨hx, hxs⟩ := List.forall_mem_cons.mp h
    rw [List.map_cons, List.mapM_cons, hx, ih hxs]
    rfl

theorem list_strings (ss : List String) : Shape.list Shape.string (.strings ss) = .ok ss :=
  list_map fun _ _ => rfl

theorem integer_of_fits {fits : Int → Bool} {z : Int} (h : fits z = true) (expected : String) :
    Shape.integer fits expected (.int z) = .ok z := by
  rw [Json.int, Shape.integer, if_pos h]

theorem int64_toInt (z : Int64) : Shape.int64 (.int z.toInt) = .ok z := by
  have hlow : -9223372036854775808 ≤ z.toInt := Int64.le_toInt z
  have hhigh : z.toInt < 9223372036854775808 := Int64.toInt_lt z
  have hfits : fitsInt64 z.toInt = true := by
    rw [fitsInt64, decide_eq_true hlow, decide_eq_true hhigh]
    rfl
  rw [Shape.int64, integer_of_fits hfits]
  exact congrArg Except.ok (Int64.ofInt_toInt z)

theorem uint64_toNat (n : UInt64) : Shape.uint64 (.int n.toNat) = .ok n := by
  have hhigh : n.toNat < 18446744073709551616 := n.toNat_lt
  have hfits : fitsUInt64 n.toNat = true := by
    simp only [fitsUInt64, Bool.and_eq_true, decide_eq_true_eq]
    omega
  have hnat : UInt64.ofInt n.toNat = n := by
    rw [UInt64.ofInt, Int.emod_eq_of_lt (by omega) (by omega), Int.toNat_natCast, UInt64.ofNat_toNat]
  rw [Shape.uint64, integer_of_fits hfits]
  exact congrArg Except.ok hnat

theorem uint16_toNat (n : UInt16) : Shape.uint16 (.int n.toNat) = .ok n := by
  have hhigh : n.toNat < 65536 := n.toNat_lt
  have hfits : fitsUInt16 n.toNat = true := by
    simp only [fitsUInt16, Bool.and_eq_true, decide_eq_true_eq]
    omega
  have hnat : UInt16.ofInt n.toNat = n := by
    rw [UInt16.ofInt, Int.emod_eq_of_lt (by omega) (by omega), Int.toNat_natCast, UInt16.ofNat_toNat]
  rw [Shape.uint16, integer_of_fits hfits]
  exact congrArg Except.ok hnat

end TokenGate.Proofs.Json.Shapes
