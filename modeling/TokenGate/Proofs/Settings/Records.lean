import TokenGate.Settings.Load
import TokenGate.Proofs.Results
import TokenGate.Proofs.Settings.Entries
import Mathlib.Data.List.Pairwise

/-! # Records of settings

A record has its fields from the parts of a setting: the entries of their names in a table, the
items of their indices in a list. A field without a part keeps its default (`told_of_record`), and
nothing but the parts decides whether there is a record at all (`readable_record`). So a setting
under a later one can be read if each of them can (`mergeable_record`). -/

namespace TokenGate.Proofs.Settings.Records

open TokenGate.Settings TokenGate.Settings.Setting TokenGate.Settings.Reading
open TokenGate.Proofs.Results TokenGate.Proofs.Settings.Entries

variable {α β : Type}

/-- A field of a record: how it is read, and where it stands. -/
structure Slot (α : Type) where
  {Value : Type}
  name : String
  reading : Reading Value
  put : Value → α → α
  get : α → Value

/-- The member of a record that a field is. -/
def Slot.member (f : Slot α) : Member α := Reading.member f.name f.reading f.put

/-- Two fields of different names, each of which can be put without a difference to the other. -/
structure Apart (f f' : Slot α) : Prop where
  name : f.name ≠ f'.name
  left : ∀ b a, f.get (f'.put b a) = f.get a
  right : ∀ b a, f'.get (f.put b a) = f'.get a

instance : Std.Symm (Apart (α := α)) := ⟨fun _ _ h => ⟨h.name.symm, h.right, h.left⟩⟩

/-- What is put into a field is found there and nowhere else. -/
structure Lawful (slots : List (Slot α)) : Prop where
  get_put : ∀ f ∈ slots, ∀ b a, f.get (f.put b a) = b
  apart : slots.Pairwise Apart

/-- A setting that has the shape that is asked for. -/
def Readable (reading : Reading β) (s : Setting) : Prop := ∃ b, reading s = .ok b

instance {reading : Reading β} : DecidablePred (Readable reading) := fun s =>
  match h : reading s with
  | .ok b => isTrue ⟨b, h⟩
  | .error _ => isFalse fun ⟨_, hb⟩ => nomatch h.symm.trans hb

/-- The part of a setting that a field of this name and index is read from. -/
def part? (name : String) (index : Nat) : Setting → Option Setting
  | .table _ entries => lookup? name entries
  | .list _ items => items[index]?
  | .scalar _ _ => none

/-- A field has what the setting says that it is read from, and what it started with if there is
none. -/
def Told (reading : Reading β) (get : α → β) (start : α) (s : Option Setting) (a : α) : Prop :=
  match s with
  | some s => reading s = .ok (get a)
  | none => get a = get start

variable {slots : List (Slot α)} {f g : Slot α} {type : String} {start a a' : α} {s : Setting}
  {es : List (String × Setting)} {items : List Setting} {o : Origin} {index : Nat}

/-! ### Fields of a record -/

theorem Lawful.tail (h : Lawful (f :: slots)) : Lawful slots :=
  ⟨fun g hg => h.get_put g (List.mem_cons_of_mem _ hg), (List.pairwise_cons.mp h.apart).2⟩

theorem Lawful.eq_of_name_eq (h : Lawful slots) (hf : f ∈ slots) (hg : g ∈ slots)
    (hname : f.name = g.name) : f = g :=
  by_contra fun hne => (h.apart.forall hf hg hne).name hname

theorem Lawful.get_put_of_ne (h : Lawful slots) (hf : f ∈ slots) (hg : g ∈ slots)
    (hname : f.name ≠ g.name) (b : g.Value) (a : α) : f.get (g.put b a) = f.get a :=
  (h.apart.forall hf hg fun e => hname (congrArg Slot.name e)).left b a

theorem Told.of_start {reading : Reading β} {get : α → β} {s : Option Setting} {start' : α}
    (h : Told reading get start s a) (hstart : get start = get start') :
    Told reading get start' s a := by
  cases s with
  | none => exact h.trans hstart
  | some s => exact h

theorem below_eq_ok {name : String} {x : Except Misfit α} : below name x = .ok a ↔ x = .ok a := by
  cases x with
  | ok b => exact Iff.rfl
  | error m => constructor <;> intro h <;> cases h

theorem below_set_eq_ok {name : String} :
    below name (f.member.set s a) = .ok a' ↔ ∃ b, f.reading s = .ok b ∧ f.put b a = a' := by
  rw [below_eq_ok]
  exact map_eq_ok

theorem find?_member_eq_none {n : String}
    (h : (slots.map Slot.member).find? (·.name = n) = none) : ∀ f ∈ slots, f.name ≠ n := by
  intro f hf hn
  exact List.find?_eq_none.mp h f.member (List.mem_map_of_mem hf) (decide_eq_true hn)

theorem find?_member_eq_some {n : String} {m : Member α}
    (h : (slots.map Slot.member).find? (·.name = n) = some m) :
    ∃ f ∈ slots, f.name = n ∧ m = f.member := by
  obtain ⟨f, hf, rfl⟩ := List.mem_map.mp (List.mem_of_find?_eq_some h)
  have hname := List.find?_some h
  exact ⟨f, hf, of_decide_eq_true hname, rfl⟩

/-! ### What is read -/

theorem told_of_setEntries (hlaw : Lawful slots) (hes : Increasing es) (hf : f ∈ slots)
    (h : setEntries (slots.map Slot.member) es a = .ok a') :
    Told f.reading f.get a (lookup? f.name es) a' := by
  induction es generalizing a with
  | nil =>
    cases h
    rfl
  | cons e es ih =>
    obtain ⟨n, s⟩ := e
    have hrest := (List.pairwise_cons.mp hes).2
    rw [setEntries] at h
    rw [lookup?]
    split at h
    · rename_i m hm
      obtain ⟨g, hg, hn, rfl⟩ := find?_member_eq_some hm
      obtain ⟨a₁, ha₁, h⟩ := bind_eq_ok.mp h
      obtain ⟨b, hb, rfl⟩ := below_set_eq_ok.mp ha₁
      have htold := ih hrest h
      by_cases hname : n = f.name
      · -- No later entry has this name, so that the field keeps what is put here.
        obtain rfl := hlaw.eq_of_name_eq hg hf (hn.trans hname)
        rw [← hname, lookup?_of_increasing_cons hes, Told, hlaw.get_put g hf] at htold
        rw [if_pos hname, Told, hb, htold]
      · rw [if_neg hname]
        exact htold.of_start (hlaw.get_put_of_ne hf hg (fun e => hname (hn.symm.trans e.symm)) b a)
    · rename_i hnone
      rw [if_neg fun e => find?_member_eq_none hnone f hf e.symm]
      exact ih hrest h

theorem get_of_setItems (hf : ∀ g ∈ slots, ∀ b a, f.get (g.put b a) = f.get a)
    (h : setItems index (slots.map Slot.member) items a = .ok a') : f.get a' = f.get a := by
  induction slots generalizing items index a with
  | nil =>
    cases h
    rfl
  | cons g slots ih =>
    obtain ⟨hg, hslots⟩ := List.forall_mem_cons.mp hf
    cases items with
    | nil =>
      cases h
      rfl
    | cons s items =>
      obtain ⟨a₁, ha₁, h⟩ := bind_eq_ok.mp h
      obtain ⟨b, -, rfl⟩ := below_set_eq_ok.mp ha₁
      exact (ih hslots h).trans (hg b a)

theorem told_of_setItems (hlaw : Lawful slots) {j : Nat} (hj : slots[j]? = some f)
    (h : setItems index (slots.map Slot.member) items a = .ok a') :
    Told f.reading f.get a items[j]? a' := by
  induction slots generalizing items index a j with
  | nil => cases hj
  | cons g slots ih =>
    have hapart := (List.pairwise_cons.mp hlaw.apart).1
    cases items with
    | nil =>
      cases h
      rfl
    | cons s items =>
      obtain ⟨a₁, ha₁, h⟩ := bind_eq_ok.mp h
      obtain ⟨b, hb, rfl⟩ := below_set_eq_ok.mp ha₁
      cases j with
      | zero =>
        cases hj
        have hkeep := get_of_setItems (fun g hg => (hapart g hg).left) h
        rw [hlaw.get_put f List.mem_cons_self] at hkeep
        rw [List.getElem?_cons_zero, Told, hb, hkeep]
      | succ j =>
        have hmem : f ∈ slots := List.mem_of_getElem? hj
        exact (ih hlaw.tail hj h).of_start ((hapart f hmem).right b a)

/-- **A record** has its fields from the parts of the setting that it is read from. -/
theorem told_of_record (hlaw : Lawful slots) (hs : Ordered s) {j : Nat} (hj : slots[j]? = some f)
    (h : record type start (slots.map Slot.member) s = .ok a) :
    Told f.reading f.get start (part? f.name j s) a := by
  cases hs with
  | scalar o v => cases h
  | list o heach => exact told_of_setItems hlaw hj h
  | table o hinc heach => exact told_of_setEntries hlaw hinc (List.mem_of_getElem? hj) h

/-! ### What can be read -/

theorem readable_setEntries (hes : Increasing es)
    (h : ∀ f ∈ slots, ∀ t, lookup? f.name es = some t → Readable f.reading t) (a : α) :
    ∃ a', setEntries (slots.map Slot.member) es a = .ok a' := by
  induction es generalizing a with
  | nil => exact ⟨a, rfl⟩
  | cons e es ih =>
    obtain ⟨n, s⟩ := e
    have hrest : ∀ f ∈ slots, ∀ t, lookup? f.name es = some t → Readable f.reading t := by
      intro f hf t ht
      have hn : n ≠ f.name := by
        rintro rfl
        rw [lookup?_of_increasing_cons hes] at ht
        cases ht
      exact h f hf t (by rw [lookup?, if_neg hn, ht])
    have hfound := ih (List.pairwise_cons.mp hes).2 hrest
    rw [setEntries]
    split
    · rename_i m hm
      obtain ⟨g, hg, rfl, rfl⟩ := find?_member_eq_some hm
      obtain ⟨b, hb⟩ := h g hg s (by rw [lookup?, if_pos rfl])
      obtain ⟨a', ha'⟩ := hfound (g.put b a)
      exact ⟨a', bind_eq_ok.mpr ⟨_, below_set_eq_ok.mpr ⟨b, hb, rfl⟩, ha'⟩⟩
    · exact hfound a

theorem readable_setItems
    (h : ∀ (j : Nat) (f : Slot α), slots[j]? = some f → ∀ t, items[j]? = some t → Readable f.reading t)
    (a : α) :
    ∃ a', setItems index (slots.map Slot.member) items a = .ok a' := by
  induction slots generalizing items index a with
  | nil => exact ⟨a, rfl⟩
  | cons g slots ih =>
    cases items with
    | nil => exact ⟨a, rfl⟩
    | cons s items =>
      obtain ⟨b, hb⟩ := h 0 g rfl s rfl
      have hrest : ∃ a', setItems (index + 1) (slots.map Slot.member) items (g.put b a) = .ok a' :=
        ih (fun j f hf t ht => h (j + 1) f hf t ht) (g.put b a)
      obtain ⟨a', ha'⟩ := hrest
      exact ⟨a', bind_eq_ok.mpr ⟨_, below_set_eq_ok.mpr ⟨b, hb, rfl⟩, ha'⟩⟩

/-- **A record can be read** from a table or a list whose parts can be read. -/
theorem readable_record (hlaw : Lawful slots) (hs : Ordered s) :
    Readable (record type start (slots.map Slot.member)) s ↔ (∀ o v, s ≠ .scalar o v) ∧
      ∀ j f, slots[j]? = some f → ∀ t, part? f.name j s = some t → Readable f.reading t := by
  constructor
  · rintro ⟨a, ha⟩
    refine ⟨fun o v hscalar => ?_, fun j f hj t ht => ?_⟩
    · rw [hscalar] at ha
      cases ha
    · have htold := told_of_record hlaw hs hj ha
      rw [ht] at htold
      exact ⟨_, htold⟩
  · rintro ⟨hscalar, hparts⟩
    cases hs with
    | scalar o v => exact absurd rfl (hscalar o v)
    | list o heach => exact readable_setItems hparts start
    | table o hinc heach =>
      refine readable_setEntries hinc (fun f hf t ht => ?_) start
      obtain ⟨j, hj⟩ := List.getElem?_of_mem hf
      exact hparts j f hj t ht

theorem readable_single (hlaw : Lawful slots) {n : String} :
    Readable (record type start (slots.map Slot.member)) (.table o [(n, s)]) ↔
      ∀ f ∈ slots, f.name = n → Readable f.reading s := by
  rw [Readable, record, setEntries]
  split
  · rename_i m hm
    obtain ⟨g, hg, rfl, rfl⟩ := find?_member_eq_some hm
    simp only [bind_eq_ok, below_set_eq_ok]
    constructor
    · rintro ⟨_, _, ⟨b, hb, -⟩, -⟩ f hf hn
      obtain rfl := hlaw.eq_of_name_eq hf hg hn
      exact ⟨b, hb⟩
    · intro h
      obtain ⟨b, hb⟩ := h g hg rfl
      exact ⟨_, _, ⟨b, hb, rfl⟩, rfl⟩
  · rename_i hnone
    exact iff_of_true ⟨start, rfl⟩ fun f hf hn => absurd hn (find?_member_eq_none hnone f hf)

/-! ### What can be read in layers -/

/-- What can be read, and can be read in a layer over it, can be read with the layer. -/
def Mergeable (reading : Reading β) : Prop :=
  ∀ b l, Ordered b → Ordered l → Readable reading b → Readable reading l →
    Readable reading (b.overlay l)

theorem mergeable_of_flat {reading : Reading β} (h : ∀ o es, ¬Readable reading (.table o es)) :
    Mergeable reading := by
  intro b l _ _ _ hl
  rcases overlay_cases b l with heq | ⟨_, _, o, es, -, rfl⟩
  · rwa [heq]
  · exact absurd hl (h o es)

theorem mergeable_record (hlaw : Lawful slots) (hslots : ∀ f ∈ slots, Mergeable f.reading) :
    Mergeable (record type start (slots.map Slot.member)) := by
  intro b l hb hl hreadb hreadl
  rcases overlay_cases b l with heq | ⟨o, bs, o', es, rfl, rfl⟩
  · rwa [heq]
  refine (readable_record hlaw (ordered_overlay hb hl)).mpr ⟨?_, fun j f hj t ht => ?_⟩
  · rw [table_overlay_table]
    exact fun _ _ => nofun
  have hpartb := ((readable_record hlaw hb).mp hreadb).2 j f hj
  have hpartl := ((readable_record hlaw hl).mp hreadl).2 j f hj
  rw [table_overlay_table, part?, lookup?_overlayEntries hl.increasing_entries] at ht
  cases hsb : lookup? f.name bs with
  | none =>
    rw [hsb, none_overlay?] at ht
    exact hpartl t ht
  | some sb =>
    cases hsl : lookup? f.name es with
    | none =>
      rw [hsb, hsl] at ht
      cases ht
      exact hpartb t hsb
    | some sl =>
      rw [hsb, hsl] at ht
      cases ht
      exact hslots f (List.mem_of_getElem? hj) sb sl (hb.of_lookup? hsb) (hl.of_lookup? hsl)
        (hpartb sb hsb) (hpartl sl hsl)

/-! ### Entries that nothing is read from -/

/-- Entries of other names make no difference. -/
theorem setEntries_filter {known : String → Bool} (h : ∀ f ∈ slots, known f.name = true)
    (es : List (String × Setting)) (a : α) :
    setEntries (slots.map Slot.member) (es.filter fun e => known e.1) a =
      setEntries (slots.map Slot.member) es a := by
  induction es generalizing a with
  | nil => rfl
  | cons e es ih =>
    obtain ⟨n, s⟩ := e
    rw [List.filter_cons, setEntries]
    split_ifs with hn
    · rw [setEntries]
      split
      · exact bind_congr fun a => ih a
      · exact ih a
    · split
      · rename_i m hm
        obtain ⟨g, hg, rfl, -⟩ := find?_member_eq_some hm
        exact absurd (h g hg) hn
      · exact ih a

end TokenGate.Proofs.Settings.Records
