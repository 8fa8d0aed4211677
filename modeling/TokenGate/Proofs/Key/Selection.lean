import TokenGate.Proofs.Key.Lookup
import Mathlib.Data.List.Basic

/-! # The key that is chosen

A verifying key is made of the parameters of an RSA key or of a key on an elliptic curve, and of no
others (`toKey?_eq_some`). For a name the first key of the name is chosen, if it makes a verifying
key (`select_named`). If it makes none, no key is chosen, even where a later key of the name would
do (`not_forall_held_selected`). This is the only way in which a key that can be used is not found
(`found_iff_not_hidden`), and where no two keys share a name it does not happen
(`not_hidden_of_distinct`). -/

namespace TokenGate.Proofs.Key.Selection

open TokenGate.Http TokenGate.Key TokenGate.Proofs.Key.Lookup

/-- Parameters make a verifying key: those of an RSA key or of a key on an elliptic curve, if both
can be read. -/
inductive Makes : Parameters → VerifyingKey → Prop
  | rsa {n e : String} {modulus exponent : List UInt8} (hn : parameterBytes? n = some modulus)
    (he : parameterBytes? e = some exponent) : Makes (.rsa n e) (.rsa modulus exponent)
  | ellipticCurve {x y : String} {xs ys : List UInt8} (hx : parameterBytes? x = some xs)
    (hy : parameterBytes? y = some ys) :
    Makes (.ellipticCurve x y) (.ellipticCurve (0x04 :: xs ++ ys))

/-- A set has a key of a name that makes a verifying key. -/
def Holds (set : JwkSet) (kid : String) (key : VerifyingKey) : Prop :=
  ∃ k ∈ set.keys, k.kid = some kid ∧ Makes k.parameters key

/-- The first key of a name in a set. -/
def IsFirst (set : JwkSet) (kid : String) (k : Jwk) : Prop :=
  k.kid = some kid ∧ ∃ earlier later, set.keys = earlier ++ k :: later ∧
    ∀ k' ∈ earlier, k'.kid ≠ some kid

/-- The keys of a name that make a verifying key are hidden by one in front of them that makes
none. -/
def Hidden (set : JwkSet) (kid : String) : Prop :=
  (∃ k, IsFirst set kid k ∧ ∀ key, ¬ Makes k.parameters key) ∧ ∃ key, Holds set kid key

/-- What a set gives for a token that names a key, or none: the key, or why there is none. -/
inductive Gives (set : JwkSet) (kid : Option String) : Except VerifyFault VerifyingKey → Prop
  | found {key : VerifyingKey} (h : select set kid = .ok (some key)) : Gives set kid (.ok key)
  | ambiguous (h : select set kid = .error .missingKeyId) : Gives set kid (.error .missingKeyId)
  | unknown (h : select set kid = .ok none) :
    Gives set kid (.error (.unknownKeyId (kid.getD "<none>")))

/-- No two keys of a set have the same name. -/
def DistinctNames (set : JwkSet) : Prop :=
  set.keys.Pairwise fun k k' => ∀ kid, k.kid = some kid → k'.kid ≠ some kid

variable {set : JwkSet} {name : String} {kid : Option String} {key : VerifyingKey} {k : Jwk}
variable {c : Cache} {now : Nat} {net : Network}

/-! ### Parameters -/

/-- **The keys that can be used** are RSA keys and keys on elliptic curves: no shared secret and no
key of another curve makes a verifying key. -/
theorem toKey?_eq_some {p : Parameters} : p.toKey? = some key ↔ Makes p key := by
  constructor
  · intro h
    cases p with
    | rsa n e =>
      obtain ⟨modulus, hn, h⟩ := Option.bind_eq_some_iff.mp h
      obtain ⟨exponent, he, h⟩ := Option.bind_eq_some_iff.mp h
      cases h
      exact .rsa hn he
    | ellipticCurve x y =>
      obtain ⟨xs, hx, h⟩ := Option.bind_eq_some_iff.mp h
      obtain ⟨ys, hy, h⟩ := Option.bind_eq_some_iff.mp h
      cases h
      exact .ellipticCurve hx hy
    | octet k | octetPair x => cases h
  · intro h
    cases h with
    | rsa hn he => simp [Parameters.toKey?, hn, he]
    | ellipticCurve hx hy => simp [Parameters.toKey?, hx, hy]

/-! ### Sets -/

theorem find?_eq_some_iff_isFirst :
    set.keys.find? (·.kid = some name) = some k ↔ IsFirst set name k := by
  simp only [List.find?_eq_some_iff_append, decide_eq_true_eq, Bool.not_eq_true',
    decide_eq_false_iff_not, IsFirst, ne_eq]

/-- **For a name the first key of the name is chosen**, if it makes a verifying key. -/
theorem select_named :
    select set (some name) = .ok (some key) ↔ ∃ k, IsFirst set name k ∧ Makes k.parameters key := by
  rw [select, Except.ok.injEq, Option.bind_eq_some_iff]
  simp only [find?_eq_some_iff_isFirst, toKey?_eq_some]

/-- **Without a name the only key is chosen**, if it makes a verifying key. -/
theorem select_unnamed :
    select set none = .ok (some key) ↔ ∃ k, set.keys = [k] ∧ Makes k.parameters key := by
  obtain ⟨keys⟩ := set
  match keys with
  | [] => simp [select]
  | [only] => simp [select, toKey?_eq_some]
  | k :: k' :: rest => simp [select]

theorem holds_of_isFirst (h : IsFirst set name k) (hkey : Makes k.parameters key) :
    Holds set name key := by
  obtain ⟨hname, earlier, later, hkeys, -⟩ := h
  exact ⟨k, by simp [hkeys], hname, hkey⟩

theorem eq_of_isFirst {k' : Jwk} (h : IsFirst set name k) (h' : IsFirst set name k') : k = k' :=
  Option.some.inj ((find?_eq_some_iff_isFirst.mpr h).symm.trans (find?_eq_some_iff_isFirst.mpr h'))

theorem exists_isFirst (hk : k ∈ set.keys) (hname : k.kid = some name) :
    ∃ k', IsFirst set name k' := by
  have hsome : (set.keys.find? (·.kid = some name)).isSome := by
    rw [List.find?_isSome]
    exact ⟨k, hk, by simpa using hname⟩
  obtain ⟨k', hk'⟩ := Option.isSome_iff_exists.mp hsome
  exact ⟨k', find?_eq_some_iff_isFirst.mp hk'⟩

/-- **A key that can be used is found unless it is hidden.** -/
theorem found_iff_not_hidden (set : JwkSet) (name : String) :
    ((∃ key, select set (some name) = .ok (some key)) ↔ ∃ key, Holds set name key) ↔
      ¬ Hidden set name := by
  simp only [select_named]
  constructor
  · rintro hfound ⟨⟨k, hfirst, hnone⟩, hholds⟩
    obtain ⟨key, k', hfirst', hkey⟩ := hfound.mpr hholds
    obtain rfl := eq_of_isFirst hfirst hfirst'
    exact hnone key hkey
  · intro hhidden
    constructor
    · rintro ⟨key, k, hfirst, hkey⟩
      exact ⟨key, holds_of_isFirst hfirst hkey⟩
    · intro hholds
      obtain ⟨-, k, hk, hname, -⟩ := id hholds
      obtain ⟨first, hfirst⟩ := exists_isFirst hk hname
      by_contra hnone
      refine hhidden ⟨⟨first, hfirst, fun key hkey => ?_⟩, hholds⟩
      exact hnone ⟨key, first, hfirst, hkey⟩

theorem isFirst_of_distinct (h : DistinctNames set) (hk : k ∈ set.keys) (hname : k.kid = some name) :
    IsFirst set name k := by
  obtain ⟨earlier, later, hkeys⟩ := List.append_of_mem hk
  refine ⟨hname, earlier, later, hkeys, fun k' hk' hname' => ?_⟩
  rw [DistinctNames, hkeys] at h
  exact (List.pairwise_append.mp h).2.2 k' hk' k List.mem_cons_self name hname' hname

/-- **Where names are distinct, no key is hidden.** -/
theorem not_hidden_of_distinct (h : DistinctNames set) (name : String) : ¬ Hidden set name := by
  rintro ⟨⟨k, hfirst, hnone⟩, key, k', hk', hname, hkey⟩
  obtain rfl := eq_of_isFirst hfirst (isFirst_of_distinct h hk' hname)
  exact hnone key hkey

/-! ### Answers -/

theorem eq_missingKeyId_of_select {f : VerifyFault} (h : select set kid = .error f) :
    f = .missingKeyId := by
  unfold select at h
  split at h
  · cases h
  · split at h <;> cases h
    rfl

theorem gives_answer (set : JwkSet) (kid : Option String) :
    Gives set kid (Cache.answer set kid) := by
  unfold Cache.answer
  cases h : select set kid with
  | error f =>
    obtain rfl := eq_missingKeyId_of_select h
    exact .ambiguous h
  | ok key =>
    cases key with
    | none => exact .unknown h
    | some key => exact .found h

theorem answer_eq_unknown (h : Cache.answer set kid = .error (.unknownKeyId name)) :
    select set kid = .ok none ∧ name = kid.getD "<none>" := by
  have hgives := gives_answer set kid
  rw [h] at hgives
  cases hgives with
  | unknown hnone => exact ⟨hnone, rfl⟩

theorem answer_ne_keyFetch (set : JwkSet) (kid : Option String) (reason : String) :
    Cache.answer set kid ≠ .error (.keyFetch reason) := by
  intro h
  have hgives := gives_answer set kid
  rw [h] at hgives
  cases hgives

/-! ### Lookups -/

/-- **A key is unknown only if the current set chooses none**, which is the set that is cached
afterwards. -/
theorem unknown_of_lookup (h : (c.lookup now net kid).result = .error (.unknownKeyId name)) :
    ∃ s, (c.lookup now net kid).cache.cached = some s ∧ select s.set kid = .ok none ∧
      name = kid.getD "<none>" := by
  rcases lookup_cases c now net kid with ⟨s, hs, -, hl⟩ | ⟨-, hl⟩
  · rw [hl] at h ⊢
    exact ⟨s, (fresh?_eq_some.mp hs).1, answer_eq_unknown h⟩
  · rw [hl] at h ⊢
    cases hf : (c.fetch net).result with
    | error f =>
      rw [refresh_of_error hf] at h
      cases h
    | ok set =>
      rw [refresh_of_ok hf] at h ⊢
      exact ⟨⟨set, now⟩, rfl, answer_eq_unknown h⟩

/-- **What is chosen.** For a name the first key of the name is chosen, and without a name the only
key, if it makes a verifying key. A key that can be used is found exactly if it is not hidden, which
it never is where names are distinct. A lookup calls a key unknown only if the set that is cached
afterwards chooses none. -/
theorem first_key_selected (set : JwkSet) :
    (∀ name key, select set (some name) = .ok (some key) ↔
      ∃ k, IsFirst set name k ∧ Makes k.parameters key) ∧
    (∀ key, select set none = .ok (some key) ↔ ∃ k, set.keys = [k] ∧ Makes k.parameters key) ∧
    (∀ name, ((∃ key, select set (some name) = .ok (some key)) ↔ ∃ key, Holds set name key) ↔
      ¬ Hidden set name) ∧
    (DistinctNames set → ∀ name, ¬ Hidden set name) ∧
    ∀ (c : Cache) now net kid name, (c.lookup now net kid).result = .error (.unknownKeyId name) →
      ∃ s, (c.lookup now net kid).cache.cached = some s ∧ select s.set kid = .ok none ∧
        name = kid.getD "<none>" :=
  ⟨fun _ _ => select_named, fun _ => select_unnamed, found_iff_not_hidden set,
    fun h name => not_hidden_of_distinct h name, fun _ _ _ _ _ h => unknown_of_lookup h⟩

/-! ### A name that two keys share -/

/-- A set with a shared secret and an RSA key of one name. -/
def sharedName : JwkSet := ⟨[⟨some "k", .octet "c2VjcmV0"⟩, ⟨some "k", .rsa "AQAB" "AQAB"⟩]⟩

theorem holds_sharedName : Holds sharedName "k" (.rsa [1, 0, 1] [1, 0, 1]) :=
  ⟨⟨some "k", .rsa "AQAB" "AQAB"⟩, by simp [sharedName], rfl,
    .rsa (by decide +kernel) (by decide +kernel)⟩

/-- **Not every key that can be used is found.** A key is hidden by one of its name in front of it
that makes no verifying key. -/
theorem not_forall_held_selected : ¬ ∀ (set : JwkSet) (name : String),
    (∃ key, select set (some name) = .ok (some key)) ↔ ∃ key, Holds set name key := by
  intro h
  obtain ⟨key, hkey⟩ := (h sharedName "k").mpr ⟨_, holds_sharedName⟩
  cases hkey

end TokenGate.Proofs.Key.Selection
