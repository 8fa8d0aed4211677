import TokenGate.Proofs.Json.Members
import Mathlib.Data.List.Pairwise
import Mathlib.Logic.Relation

/-! # Edits that make no difference

A record whose members are all free can be written in many ways. An object may have members of other
names, it need not have a member that only repeats the default, and the value of a member may be
written in another way, too (`Edit`). Whatever is read before such an edit is read after it
(`keeps_edit`), because no member gets in the way of another (`Commutes`): what a member sets, it
sets at any time. -/

namespace TokenGate.Proofs.Json.Edits

open TokenGate.Json TokenGate.Proofs.Results TokenGate.Proofs.Json.Members

variable {α β γ : Type}

/-- Of some changes to values, none makes a difference to a shape: what it reads before, it reads
after. -/
def Keeps (change : Json → Json → Prop) (shape : Shape α) : Prop :=
  ∀ v w, change v w → ∀ a, shape v = .ok a → shape w = .ok a

/-- Two members of a record can be set in either order. -/
def Commutes (f g : Member α) : Prop :=
  ∀ v w a b c, f.set v a = .ok b → g.set w a = .ok c → ∃ d, g.set w b = .ok d ∧ f.set v c = .ok d

/-- The members of a record are free: none has to be there, they have different names, and they can
be set in any order. -/
structure Free (fields : List (Member α)) : Prop where
  optional : ∀ f ∈ fields, f.required = false
  apart : fields.Pairwise fun f g => f.name ≠ g.name
  commute : fields.Pairwise Commutes

/-- One edit of a value for a record with a default and some members: a member of an unknown name is
added, a member that sets nothing but the default is dropped, or the value of a member is edited by
a change that its name allows. -/
inductive Edit (start : α) (fields : List (Member α)) (within : String → Json → Json → Prop) :
    Json → Json → Prop
  | add (pre post : List (String × Json)) {name : String} (v : Json)
    (hunknown : ∀ f ∈ fields, f.name ≠ name) :
    Edit start fields within (.object (pre ++ post)) (.object (pre ++ (name, v) :: post))
  | drop (pre post : List (String × Json)) {f : Member α} {v : Json} (hf : f ∈ fields)
    (hfirst : ∀ m ∈ pre, m.1 ≠ f.name) (hdefault : f.set v start = .ok start) :
    Edit start fields within (.object (pre ++ (f.name, v) :: post)) (.object (pre ++ post))
  | member (pre post : List (String × Json)) {name : String} {v w : Json} (h : within name v w) :
    Edit start fields within (.object (pre ++ (name, v) :: post))
      (.object (pre ++ (name, w) :: post))
  | item (pre post : List Json) {f : Member α} {v w : Json} (hf : fields[pre.length]? = some f)
    (h : within f.name v w) :
    Edit start fields within (.array (pre ++ v :: post)) (.array (pre ++ w :: post))

/-- One edit of a list: one of its items is edited. -/
inductive ItemEdit (change : Json → Json → Prop) : Json → Json → Prop
  | item (pre post : List Json) {v w : Json} (h : change v w) :
    ItemEdit change (.array (pre ++ v :: post)) (.array (pre ++ w :: post))

/-! ### Members -/

instance : Std.Symm (Commutes (α := α)) where
  symm f g h := by
    intro v w a b c hg hf
    obtain ⟨d, hd, hd'⟩ := h w v a c b hf hg
    exact ⟨d, hd', hd⟩

@[simp] theorem required_free (name : String) (shape : Shape β) (put : β → α → α) :
    (Member.free name shape put).required = false := rfl

@[simp] theorem commutes_free {name name' : String} {shape : Shape β} {shape' : Shape γ} {put : β → α → α}
    {put' : γ → α → α} (h : ∀ x y a, put x (put' y a) = put' y (put x a)) :
    Commutes (.free name shape put) (.free name' shape' put') := by
  intro v w a b c hf hg
  obtain ⟨x, hx, rfl⟩ := set_free.mp hf
  obtain ⟨y, hy, rfl⟩ := set_free.mp hg
  exact ⟨put' y (put x a), set_free.mpr ⟨y, hy, rfl⟩, set_free.mpr ⟨x, hx, h x y a⟩⟩

theorem set_free_of_keeps {change : Json → Json → Prop} {name : String} {shape : Shape β}
    {put : β → α → α} (hkeeps : Keeps change shape) {v w : Json} (h : change v w) {a b : α}
    (hset : (Member.free name shape put).set v a = .ok b) :
    (Member.free name shape put).set w a = .ok b := by
  obtain ⟨x, hx, hput⟩ := set_free.mp hset
  exact set_free.mpr ⟨x, hkeeps v w h x hx, hput⟩

section Fields

variable {fields : List (Member α)} {f : Member α} {v w : Json} {a b start : α}

theorem find?_of_mem (hapart : fields.Pairwise fun f g => f.name ≠ g.name) (hf : f ∈ fields) :
    fields.find? (·.name = f.name) = some f := by
  induction fields with
  | nil => cases hf
  | cons g fields ih =>
    obtain ⟨hg, hfields⟩ := List.pairwise_cons.mp hapart
    rcases List.mem_cons.mp hf with rfl | hf
    · rw [List.find?_cons_of_pos (by simp)]
    · rw [List.find?_cons_of_neg (by simpa using hg f hf)]
      exact ih hfields hf

theorem setMembers_append (pre post : List (String × Json)) (a : α) :
    Record.setMembers fields (pre ++ post) a =
      (Record.setMembers fields pre a).bind (Record.setMembers fields post) := by
  induction pre generalizing a with
  | nil => rfl
  | cons m pre ih =>
    obtain ⟨name, v⟩ := m
    rw [List.cons_append, Record.setMembers, Record.setMembers]
    split
    · rename_i f hf
      cases f.set v a with
      | error e => rfl
      | ok b => exact ih b
    · exact ih a

/-- **A member that would set nothing new still does so after others were set.** -/
theorem set_after (hfields : Free fields) (hf : f ∈ fields) (h : f.set v a = .ok a)
    {ms : List (String × Json)} (hms : ∀ m ∈ ms, m.1 ≠ f.name)
    (hset : Record.setMembers fields ms a = .ok b) : f.set v b = .ok b := by
  induction ms generalizing a with
  | nil =>
    cases hset
    exact h
  | cons m ms ih =>
    obtain ⟨name, w⟩ := m
    obtain ⟨hne, hms⟩ := List.forall_mem_cons.mp hms
    rw [Record.setMembers] at hset
    split at hset
    · rename_i g hg
      obtain ⟨c, hc, hset⟩ := bind_eq_ok.mp hset
      have hname : g.name = name := by simpa using List.find?_some hg
      have hfg : f ≠ g := fun hfg => hne (by rw [hfg, hname])
      have hcommutes := hfields.commute.forall hf (List.mem_of_find?_eq_some hg) hfg
      -- Both are set at `a`; the one sets nothing, so the other way round it sets nothing either.
      obtain ⟨d, hd, hc'⟩ := hcommutes v w a a c h hc
      obtain rfl : c = d := Except.ok.inj (hc.symm.trans hd)
      exact ih hc' hms hset
    · exact ih h hms hset

variable {within : String → Json → Json → Prop}

theorem shape_object (hfields : Free fields) (type : String) (start : α)
    (ms : List (String × Json)) :
    Record.shape type start fields (.object ms) = Record.setMembers fields ms start := by
  have hmissing : Record.missing? fields ms = none := by
    rw [Record.missing?, Option.map_eq_none_iff, List.find?_eq_none]
    intro f hf
    rw [hfields.optional f hf]
    simp
  rw [Record.shape, hmissing]
  cases Record.setMembers fields ms start <;> rfl

theorem setMembers_congr {pre ms ms' : List (String × Json)}
    (h : ∀ b c, Record.setMembers fields pre a = .ok b → Record.setMembers fields ms b = .ok c →
      Record.setMembers fields ms' b = .ok c)
    (hset : Record.setMembers fields (pre ++ ms) a = .ok b) :
    Record.setMembers fields (pre ++ ms') a = .ok b := by
  rw [setMembers_append] at hset ⊢
  obtain ⟨c, hc, hset⟩ := except_bind_eq_ok.mp hset
  exact except_bind_eq_ok.mpr ⟨c, hc, h c b hc hset⟩

theorem setItems_congr {expected : String} {index : Nat} {pre post : List Json}
    (hf : fields[pre.length]? = some f) (h : ∀ b c, f.set v b = .ok c → f.set w b = .ok c)
    (hset : Record.setItems expected index fields (pre ++ v :: post) a = .ok b) :
    Record.setItems expected index fields (pre ++ w :: post) a = .ok b := by
  induction pre generalizing fields index a with
  | nil =>
    cases fields with
    | nil => cases hf
    | cons g fields =>
      obtain rfl : g = f := Option.some.inj hf
      obtain ⟨c, hc, hset⟩ := bind_eq_ok.mp hset
      exact bind_eq_ok.mpr ⟨c, h a c hc, hset⟩
  | cons u pre ih =>
    cases fields with
    | nil => cases hf
    | cons g fields =>
      obtain ⟨c, hc, hset⟩ := bind_eq_ok.mp hset
      exact bind_eq_ok.mpr ⟨c, hc, ih hf hset⟩

/-! ### Edits -/

/-- **No edit makes a difference** to a record whose members are free, if none does to the values of
the members. -/
theorem keeps_edit (hfields : Free fields) (type : String)
    (hwithin : ∀ f ∈ fields, ∀ v w, within f.name v w → ∀ a b, f.set v a = .ok b → f.set w a = .ok b) :
    Keeps (Edit start fields within) (Record.shape type start fields) := by
  intro v w h a hv
  cases h with
  | @add pre post name v hunknown =>
    rw [shape_object hfields] at hv ⊢
    refine setMembers_congr (fun b c _ hset => ?_) hv
    have hnone : fields.find? (·.name = name) = none := by
      rw [List.find?_eq_none]
      simpa using hunknown
    rw [Record.setMembers, hnone]
    exact hset
  | drop pre post hf hfirst hdefault =>
    rw [shape_object hfields] at hv ⊢
    refine setMembers_congr (fun b c hb hset => ?_) hv
    rwa [setMembers_of_found (find?_of_mem hfields.apart hf)
      (set_after hfields hf hdefault hfirst hb)] at hset
  | @member pre post name v w hvw =>
    rw [shape_object hfields] at hv ⊢
    refine setMembers_congr (fun b c _ hset => ?_) hv
    rw [Record.setMembers] at hset ⊢
    split at hset
    · rename_i f hf
      obtain rfl : f.name = name := by simpa using List.find?_some hf
      obtain ⟨d, hd, hset⟩ := bind_eq_ok.mp hset
      exact bind_eq_ok.mpr ⟨d, hwithin f (List.mem_of_find?_eq_some hf) v w hvw b d hd, hset⟩
    · exact hset
  | item pre post hf hvw =>
    exact setItems_congr hf (hwithin _ (List.mem_of_getElem? hf) _ _ hvw) hv

end Fields

variable {change : Json → Json → Prop} {shape : Shape α}

theorem keeps_itemEdit (hkeeps : Keeps change shape) :
    Keeps (ItemEdit change) (Shape.list shape) := by
  intro v w h as has
  cases h with
  | item pre post hvw =>
    rw [Shape.list] at has ⊢
    induction pre generalizing as with
    | nil =>
      rw [List.nil_append, List.mapM_cons] at has ⊢
      obtain ⟨a, ha, has⟩ := bind_eq_ok.mp has
      exact bind_eq_ok.mpr ⟨a, hkeeps _ _ hvw a ha, has⟩
    | cons u pre ih =>
      rw [List.cons_append, List.mapM_cons] at has ⊢
      obtain ⟨a, ha, has⟩ := bind_eq_ok.mp has
      obtain ⟨bs, hbs, has⟩ := bind_eq_ok.mp has
      exact bind_eq_ok.mpr ⟨a, ha, bind_eq_ok.mpr ⟨bs, ih bs hbs, has⟩⟩

theorem keeps_reflTransGen (hkeeps : Keeps change shape) :
    Keeps (Relation.ReflTransGen change) shape := by
  intro v w h a hv
  induction h with
  | refl => exact hv
  | tail _ hstep ih => exact hkeeps _ _ hstep a ih

end TokenGate.Proofs.Json.Edits
