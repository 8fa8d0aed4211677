import TokenGate.Proofs.Text.Utf8
import TokenGate.Provider.Registry
import Mathlib.Data.List.Induction
import Mathlib.Tactic.SplitIfs

/-! # Providers under their keys

A registry is filled by registrations, each of a provider under its own issuer or under a key that
may be another one. A later registration takes the place of those for the same key and leaves all
others alone (`get?_registered_eq_some`), and says so in the journal (`notes_run`). So the registry
is a map with exact keys (`files_registered`): a key that differs in one octet is another one. -/

namespace TokenGate.Proofs.Registry.Filing

open TokenGate.Text TokenGate.Proofs.Text.Utf8

/-- A provider is put into a registry: under its own issuer, or under a key. -/
inductive Registration
  | register (p : Provider)
  | add (key : String) (p : Provider)

namespace Registration

/-- The key that a registration is for. -/
def key : Registration → String
  | .register p => p.issuer
  | .add key _ => key

/-- The provider that is registered. -/
def provider : Registration → Provider
  | .register p => p
  | .add _ p => p

/-- What a registration does to a registry, and what it notes. -/
def run (r : Registry) : Registration → Registry × List Journal.Event
  | .register p => r.register p
  | .add key p => r.add key p

end Registration

/-- The registry after some registrations. -/
def registered (rs : List Registration) : Registry := rs.foldl (fun r s => (s.run r).1) .empty

/-- Two keys have the same octets. -/
def SameOctets (key key' : String) : Prop := Utf8.encode key = Utf8.encode key'

/-- A key has been used by one of some registrations. -/
def Used (rs : List Registration) (key : String) : Prop := ∃ s ∈ rs, SameOctets s.key key

/-- Of some registrations, one is the last for a key. -/
def LastFor (rs : List Registration) (key : String) (s : Registration) : Prop :=
  ∃ earlier later, rs = earlier ++ s :: later ∧ SameOctets s.key key ∧ ¬Used later key

variable {rs : List Registration} {s t : Registration} {r : Registry} {key key' : String}

theorem sameOctets_iff : SameOctets key key' ↔ key = key' := encode_injective.eq_iff

theorem used_concat : Used (rs ++ [s]) key ↔ Used rs key ∨ SameOctets s.key key := by
  simp only [Used, List.mem_append, List.mem_singleton, or_and_right, exists_or, exists_eq_left]

theorem lastFor_concat : LastFor (rs ++ [s]) key t ↔
    SameOctets s.key key ∧ s = t ∨ ¬SameOctets s.key key ∧ LastFor rs key t := by
  constructor
  · rintro ⟨earlier, later, hrs, ht, hlater⟩
    -- Nothing comes after the last one, or something does, and then it is this registration.
    rcases List.eq_nil_or_concat later with rfl | ⟨later, s', rfl⟩
    · obtain ⟨-, rfl⟩ := List.append_singleton_inj.mp hrs
      exact Or.inl ⟨ht, rfl⟩
    · rw [List.concat_eq_append, ← List.cons_append, ← List.append_assoc] at hrs
      obtain ⟨rfl, rfl⟩ := List.append_singleton_inj.mp hrs
      rw [List.concat_eq_append, used_concat, not_or] at hlater
      exact Or.inr ⟨hlater.2, earlier, later, rfl, ht, hlater.1⟩
  · rintro (⟨hs, rfl⟩ | ⟨hs, earlier, later, rfl, ht, hlater⟩)
    · exact ⟨rs, [], rfl, hs, fun ⟨_, h, _⟩ => by cases h⟩
    · refine ⟨earlier, later ++ [s], by simp, ht, ?_⟩
      rw [used_concat, not_or]
      exact ⟨hlater, hs⟩

/-! ### One registration -/

theorem run_eq (r : Registry) (s : Registration) :
    s.run r = (r.insert s.key s.provider, r.notices s.key) := by
  cases s <;> rfl

@[simp] theorem registered_nil : registered [] = .empty := rfl

@[simp] theorem registered_concat (rs : List Registration) (s : Registration) :
    registered (rs ++ [s]) = (registered rs).insert s.key s.provider := by
  rw [registered, List.foldl_append, List.foldl_cons, List.foldl_nil, run_eq]
  rfl

/-! ### All registrations -/

/-- **Under a key stands the provider of the last registration for it.** -/
theorem get?_registered_eq_some (rs : List Registration) (key : String) (p : Provider) :
    (registered rs).get? key = some p ↔ ∃ s, LastFor rs key s ∧ s.provider = p := by
  induction rs using List.reverseRecOn with
  | nil => simp [LastFor]
  | append_singleton rs s ih =>
    simp only [registered_concat, Registry.get?_insert, lastFor_concat, sameOctets_iff]
    split_ifs with hkey
    · simp [hkey]
    · simpa [hkey] using ih

theorem isSome_get?_registered (rs : List Registration) (key : String) :
    ((registered rs).get? key).isSome = true ↔ Used rs key := by
  induction rs using List.reverseRecOn with
  | nil => simp [Used]
  | append_singleton rs s ih =>
    rw [registered_concat, Registry.get?_insert, used_concat, sameOctets_iff, ← ih]
    split_ifs with hkey <;> simp [hkey]

theorem mem_issuers_registered (rs : List Registration) (key : String) :
    key ∈ (registered rs).issuers ↔ Used rs key := by
  rw [Registry.mem_issuers, isSome_get?_registered]

theorem isEmpty_registered (rs : List Registration) : (registered rs).isEmpty = true ↔ rs = [] := by
  rw [Registry.isEmpty_iff]
  constructor
  · intro h
    refine List.eq_nil_iff_forall_not_mem.mpr fun s hs => ?_
    have hused : Used rs s.key := ⟨s, hs, rfl⟩
    rw [← isSome_get?_registered, h s.key] at hused
    cases hused
  · rintro rfl key
    exact Registry.get?_empty key

/-- **A registration notes that it replaces another** if its key has been used before. -/
theorem notes_run (rs : List Registration) (s : Registration) :
    (Used rs s.key → (s.run (registered rs)).2 = [.providerReplaced s.key]) ∧
      (¬Used rs s.key → (s.run (registered rs)).2 = []) := by
  rw [run_eq, Registry.notices, ← isSome_get?_registered]
  exact ⟨fun h => if_pos h, fun h => if_neg h⟩

/-- A registry is a map with exact keys, filled by some registrations: under each key is the
provider of the last one for it, and the keys are listed in the order of their octets, each once.
The next one notes that it replaces another exactly if its key has been used. -/
structure Files (rs : List Registration) (r : Registry) : Prop where
  found : ∀ key p, r.get? key = some p ↔ ∃ s, LastFor rs key s ∧ s.provider = p
  missing : ∀ key, r.get? key = none ↔ ¬Used rs key
  listed : ∀ key, key ∈ r.issuers ↔ Used rs key
  increasing : r.issuers.Pairwise fun key key' => Utf8.encode key < Utf8.encode key'
  distinct : r.issuers.Nodup
  counted : r.issuers.length = r.size
  empty : r.isEmpty = true ↔ rs = []
  noted : ∀ s : Registration, (Used rs s.key → (s.run r).2 = [.providerReplaced s.key]) ∧
    (¬Used rs s.key → (s.run r).2 = [])

/-- **Registrations fill a map with exact keys.** -/
theorem files_registered (rs : List Registration) : Files rs (registered rs) where
  found := get?_registered_eq_some rs
  missing key := by rw [← isSome_get?_registered, Option.not_isSome_iff_eq_none]
  listed := mem_issuers_registered rs
  increasing := (registered rs).pairwise_issuers.imp encode_lt
  distinct := (registered rs).nodup_issuers
  counted := (registered rs).length_issuers
  empty := isEmpty_registered rs
  noted := notes_run rs

end TokenGate.Proofs.Registry.Filing
