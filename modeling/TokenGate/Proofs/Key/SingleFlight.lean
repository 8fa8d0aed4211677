import TokenGate.Key.Cache
import TokenGate.Proofs.Key.Freshness
import Mathlib.Algebra.BigOperators.Fin
import Mathlib.Algebra.Order.BigOperators.Group.Finset

/-! # One request for many lookups

Lookups of one cache that are under way at the same time take turns (`Orderly`), so that only one of
them has a request on its way. The set that is answered is cached before the turn is passed on, and
every lookup that had to wait finds it there. So all of them together send one request at most, none
of them waits for ever, and each is answered from the set that was fresh before or from the one that
came (`lookups_share_request`). A lookup that has the cache for itself takes its steps with the
outcome of `Cache.lookup` (`run_alone`). -/

namespace TokenGate.Proofs.Key.SingleFlight

open TokenGate.Http TokenGate.Key TokenGate.Key.Flight
open TokenGate.Proofs.Results TokenGate.Proofs.Key.Lookup TokenGate.Proofs.Key.Freshness

variable {n : Nat} {c : Cache} {kids : Fin n → Option String} {f f' : Flight n} {now : Nat}
variable {net : Network} {i j : Fin n}

/-! ### Looks at a fresh set -/

theorem answer_of_peek {kid : Option String} {r : Except VerifyFault VerifyingKey}
    (h : c.peek now kid = some r) : ∃ s, c.fresh? now = some s ∧ r = Cache.answer s.set kid := by
  unfold Cache.peek at h
  split at h
  · cases h
  · rename_i s hs
    refine ⟨s, hs, ?_⟩
    unfold Cache.answer
    split at h <;> cases h <;> simp [*]

theorem answer_of_recheck {kid : Option String} {r : Except VerifyFault VerifyingKey}
    (h : c.recheck now kid = some r) :
    ∃ s, c.fresh? now = some s ∧ r = Cache.answer s.set kid := by
  unfold Cache.recheck at h
  split at h
  · cases h
  · rename_i s hs
    refine ⟨s, hs, ?_⟩
    unfold Cache.answer
    split at h
    · cases h; simp [*]
    · cases h; simp [*]
    · split_ifs at h
      cases h
      simp [*]

theorem recheck_of_cached {set : JwkSet} (httl : 0 < c.ttl) (hspacing : 0 < c.minRefresh)
    (hc : c.cached = some ⟨set, now⟩) (kid : Option String) : c.recheck now kid ≠ none := by
  unfold Cache.recheck
  rw [fresh?_of_cached httl hc]
  dsimp only
  split
  · simp
  · simp
  · rw [if_pos (by simpa using hspacing)]
    simp

/-! ### One step -/

/-- What a step of a lookup does. -/
inductive Steps (f : Flight n) (now : Nat) (net : Network) (i : Fin n) : Flight n → Prop
  | answer {r : Except VerifyFault VerifyingKey} (hstage : f.stages i = .arrived)
    (hpeek : f.cache.peek now (f.kids i) = some r) : Steps f now net i (f.put i (.done r))
  | wait (hstage : f.stages i = .arrived) : Steps f now net i (f.put i .waiting)
  | enter (hstage : f.stages i = .waiting) (hturn : f.turn = none) :
    Steps f now net i { f.put i .admitted with turn := some i }
  | settle {r : Except VerifyFault VerifyingKey} (hstage : f.stages i = .admitted)
    (hrecheck : f.cache.recheck now (f.kids i) = some r) :
    Steps f now net i (f.put i (.settled r))
  | ask (hstage : f.stages i = .admitted) (hrecheck : f.cache.recheck now (f.kids i) = none) :
    Steps f now net i (f.put i .asking)
  | send (hstage : f.stages i = .asking) : Steps f now net i
    { f.put i .awaiting with sent := f.sent ++ (target f.cache.uri).toOption.toList }
  | receive (hstage : f.stages i = .awaiting) : Steps f now net i
    { f.put i (.settled (f.cache.refresh now net (f.kids i)).result) with
      cache := (f.cache.refresh now net (f.kids i)).cache
      exchanges := f.exchanges ++ (f.cache.refresh now net (f.kids i)).exchanges }
  | leave {r : Except VerifyFault VerifyingKey} (hstage : f.stages i = .settled r) :
    Steps f now net i { f.put i (.done r) with turn := none }

theorem steps_of_step (h : f.step now net i = some f') : Steps f now net i f' := by
  unfold step at h
  split at h
  · rename_i hstage
    split at h <;> cases h
    · exact .answer hstage ‹_›
    · exact .wait hstage
  · rename_i hstage
    split at h <;> cases h
    exact .enter hstage ‹_›
  · rename_i hstage
    split at h <;> cases h
    · exact .settle hstage ‹_›
    · exact .ask hstage ‹_›
  · cases h
    exact .send ‹_›
  · cases h
    exact .receive ‹_›
  · cases h
    exact .leave ‹_›
  · cases h

/-! ### Turns -/

/-- The stages of a lookup in its turn. -/
def InTurn : Stage → Prop
  | .admitted | .asking | .awaiting | .settled _ => True
  | .arrived | .waiting | .done _ => False

/-- The lookups take turns: the one whose turn it is, and no other, is at a stage for that. -/
def Orderly (f : Flight n) : Prop := ∀ j, InTurn (f.stages j) ↔ f.turn = some j

theorem eq_of_inTurn (h : Orderly f) (hi : InTurn (f.stages i)) (hj : InTurn (f.stages j)) : i = j :=
  Option.some.inj (((h i).mp hi).symm.trans ((h j).mp hj))

theorem orderly_put (h : Orderly f) {g : Stage} (hg : InTurn g ↔ InTurn (f.stages i)) :
    Orderly (f.put i g) :=
  forall_stages_put (P := fun j g => InTurn g ↔ f.turn = some j) (hg.trans (h i)) fun j _ => h j

theorem orderly_of_steps (h : Orderly f) (hs : Steps f now net i f') : Orderly f' := by
  cases hs with
  | answer hstage | wait hstage | settle hstage | ask hstage | send hstage | receive hstage =>
    exact orderly_put h (by rw [hstage]; exact Iff.rfl)
  | enter hstage hturn =>
    refine forall_stages_put (P := fun j g => InTurn g ↔ some i = some j) (by simp [InTurn]) ?_
    intro j hj
    rw [h j, hturn]
    simp [Ne.symm hj]
  | @leave r hstage =>
    have hturn : f.turn = some i := (h i).mp (by rw [hstage]; trivial)
    refine forall_stages_put (P := fun j g => InTurn g ↔ none = some j) (by simp [InTurn]) ?_
    intro j hj
    rw [h j, hturn]
    simp [Ne.symm hj]

/-- A lookup that can take no step is done, or waits while it is the turn of another. -/
theorem stage_of_step_eq_none (h : f.step now net i = none) :
    (∃ r, f.stages i = .done r) ∨ f.stages i = .waiting ∧ f.turn ≠ none := by
  unfold step at h
  split at h
  · split at h <;> cases h
  · split at h
    · cases h
    · rename_i k hturn
      exact Or.inr ⟨‹_›, by rw [hturn]; simp⟩
  · split at h <;> cases h
  · cases h
  · cases h
  · cases h
  · exact Or.inl ⟨_, ‹_›⟩

/-- **No lookup waits for ever**: when no step is left, all lookups are done. -/
theorem done_of_stuck (h : Orderly f) (hstuck : ∀ j, f.step now net j = none) (i : Fin n) :
    ∃ r, f.stages i = .done r := by
  rcases stage_of_step_eq_none (hstuck i) with hdone | ⟨-, hturn⟩
  · exact hdone
  · -- The lookup whose turn it is could take a step.
    exfalso
    obtain ⟨k, hk⟩ := Option.ne_none_iff_exists'.mp hturn
    have hin : InTurn (f.stages k) := (h k).mpr hk
    rcases stage_of_step_eq_none (hstuck k) with ⟨r, hstage⟩ | ⟨hstage, -⟩ <;>
    · rw [hstage] at hin
      exact hin

/-! ### The request -/

/-- What the lookups of a cache have in common: no request was sent yet, or one is on its way, or
one was answered with a set that is cached since. -/
inductive Requested (c : Cache) (now : Nat) (f : Flight n) : Prop
  | unsent (hcache : f.cache = c) (hsent : f.sent = []) (hexchanges : f.exchanges = [])
    (hstages : ∀ j, f.stages j ≠ .awaiting)
  | underway (i : Fin n) (hcache : f.cache = c) (hsent : f.sent.length ≤ 1)
    (hexchanges : f.exchanges = []) (hstage : f.stages i = .awaiting)
  | answered (set : JwkSet) (hcache : f.cache = { c with cached := some ⟨set, now⟩ })
    (hsent : f.sent.length ≤ 1) (hset : f.exchanges.filterMap keySet? = [set])
    (hstages : ∀ j, f.stages j ≠ .asking ∧ f.stages j ≠ .awaiting)

/-- A set that a lookup may be answered from: one that was fresh before, or one that came. -/
def Offered (c : Cache) (now : Nat) (f : Flight n) (set : JwkSet) : Prop :=
  (∃ s, c.fresh? now = some s ∧ s.set = set) ∨ f.exchanges.filterMap keySet? = [set]

theorem offered_of_fresh (h : Requested c now f) {s : CachedSet} (hs : f.cache.fresh? now = some s) :
    Offered c now f s.set := by
  cases h with
  | unsent hcache | underway _ hcache => exact Or.inl ⟨s, hcache ▸ hs, rfl⟩
  | answered set hcache _ hset =>
    have hcached := (fresh?_eq_some.mp hs).1
    rw [hcache] at hcached
    obtain rfl := Option.some.inj hcached
    exact Or.inr hset

theorem length_sent_le (h : Requested c now f) : f.sent.length ≤ 1 := by
  cases h with
  | unsent _ hsent => simp [hsent]
  | underway _ _ hsent | answered _ _ hsent => exact hsent

theorem keySets_of_refresh {set : JwkSet} (hcache : f.cache = c) (hexchanges : f.exchanges = [])
    (hset : (c.fetch net).result = .ok set) (kid : Option String) :
    (f.exchanges ++ (f.cache.refresh now net kid).exchanges).filterMap keySet? = [set] := by
  rw [hcache, hexchanges, refresh_of_ok hset, List.nil_append, keySet?_exchanges_fetch, hset]
  rfl

theorem requested_put {g : Stage} (h : Requested c now f) (hcache : f'.cache = f.cache)
    (hsent : f'.sent = f.sent) (hexchanges : f'.exchanges = f.exchanges)
    (hstages : f'.stages = (f.put i g).stages) (hold : f.stages i ≠ .awaiting)
    (hnew : g ≠ .asking ∧ g ≠ .awaiting) : Requested c now f' := by
  cases h with
  | unsent hc hs he hj =>
    refine .unsent (hcache.trans hc) (hsent.trans hs) (hexchanges.trans he) ?_
    rw [hstages]
    exact forall_stages_put (P := fun _ g => g ≠ .awaiting) hnew.2 fun j _ => hj j
  | underway k hc hs he hk =>
    have hki : k ≠ i := fun e => hold (e ▸ hk)
    refine .underway k (hcache.trans hc) (hsent ▸ hs) (hexchanges.trans he) ?_
    rw [hstages, stages_put_of_ne f hki]
    exact hk
  | answered set hc hs he hj =>
    refine .answered set (hcache.trans hc) (hsent ▸ hs) (hexchanges ▸ he) ?_
    rw [hstages]
    exact forall_stages_put (P := fun _ g => g ≠ .asking ∧ g ≠ .awaiting) hnew fun j _ => hj j

/-- **One request**: as long as sets are answered, no lookup asks for another one. -/
theorem requested_of_steps (httl : 0 < c.ttl) (hspacing : 0 < c.minRefresh)
    (hdecoded : ∃ set, (c.fetch net).result = .ok set) (horderly : Orderly f)
    (h : Requested c now f) (hs : Steps f now net i f') : Requested c now f' := by
  cases hs with
  | answer hstage | wait hstage | enter hstage | settle hstage | leave hstage =>
    exact requested_put h rfl rfl rfl rfl (by rw [hstage]; simp) ⟨by simp, by simp⟩
  | ask hstage hrecheck =>
    cases h with
    | unsent hcache hsent hexchanges hstages =>
      exact .unsent hcache hsent hexchanges
        (forall_stages_put (P := fun _ g => g ≠ .awaiting) (by simp) fun j _ => hstages j)
    | underway k _ _ _ hk =>
      obtain rfl : k = i := eq_of_inTurn horderly (by rw [hk]; trivial) (by rw [hstage]; trivial)
      rw [hk] at hstage
      cases hstage
    | answered set hcache =>
      -- The set that came is fresh and recent, so the second look would have been answered.
      rw [hcache] at hrecheck
      exact absurd hrecheck (recheck_of_cached (c := { c with cached := some ⟨set, now⟩ }) httl hspacing
        rfl _)
  | send hstage =>
    cases h with
    | unsent hcache hsent hexchanges =>
      refine .underway i hcache ?_ hexchanges (stages_put_self f i .awaiting)
      dsimp only
      rw [hsent, List.nil_append]
      cases (target f.cache.uri).toOption <;> simp
    | underway k _ _ _ hk =>
      obtain rfl : k = i := eq_of_inTurn horderly (by rw [hk]; trivial) (by rw [hstage]; trivial)
      rw [hk] at hstage
      cases hstage
    | answered _ _ _ _ hstages => exact absurd hstage (hstages i).1
  | receive hstage =>
    cases h with
    | unsent _ _ _ hstages => exact absurd hstage (hstages i)
    | underway _ hcache hsent hexchanges =>
      obtain ⟨set, hset⟩ := hdecoded
      refine .answered set ?_ hsent (keySets_of_refresh hcache hexchanges hset _) ?_
      · dsimp only
        rw [hcache, refresh_of_ok hset]
      · refine forall_stages_put (P := fun _ g => g ≠ .asking ∧ g ≠ .awaiting) (by simp) ?_
        intro j hj
        -- Another lookup is not in its turn.
        have hnot : ¬InTurn (f.stages j) := fun hin =>
          hj (eq_of_inTurn horderly hin (by rw [hstage]; trivial))
        constructor <;> intro e <;> exact hnot (by rw [e]; trivial)
    | answered _ _ _ _ hstages => exact absurd hstage (hstages i).2

/-- All exchanges are those of one fetch with a step of some. -/
def FetchedOnce (c : Cache) (moves : List (Move n)) (f : Flight n) : Prop :=
  f.exchanges = [] ∨ ∃ m ∈ moves, f.exchanges = (c.fetch m.net).exchanges

/-- **One fetch**: nobody receives anything once something has come. -/
theorem fetchedOnce_of_steps {moves : List (Move n)} {m : Move n} (hm : m ∈ moves)
    (hrequested : Requested c now f) (h : FetchedOnce c moves f)
    (hs : Steps f now m.net m.lookup f') : FetchedOnce c moves f' := by
  cases hs with
  | receive hstage =>
    cases hrequested with
    | unsent _ _ _ hstages => exact absurd hstage (hstages m.lookup)
    | underway _ hcache _ hexchanges =>
      refine Or.inr ⟨m, hm, ?_⟩
      dsimp only
      rw [hcache, hexchanges, List.nil_append, exchanges_refresh]
      rfl
    | answered _ _ _ _ hstages => exact absurd hstage (hstages m.lookup).2
  | _ => exact h

/-! ### Results -/

/-- The result of a lookup that has one. -/
def result? : Stage → Option (Except VerifyFault VerifyingKey)
  | .settled r | .done r => some r
  | .arrived | .waiting | .admitted | .asking | .awaiting => none

/-- Every lookup that has a result is answered from a set that it may be answered from. -/
def Answered (c : Cache) (now : Nat) (f : Flight n) : Prop :=
  ∀ j r, result? (f.stages j) = some r → ∃ set, Offered c now f set ∧ r = Cache.answer set (f.kids j)

theorem offered_of_steps (h : Requested c now f) (hs : Steps f now net i f') {set : JwkSet}
    (hset : Offered c now f set) : Offered c now f' set := by
  cases hs with
  | receive hstage =>
    rcases hset with hfresh | hcame
    · exact Or.inl hfresh
    · -- A set has come, so nobody can be waiting for one.
      cases h with
      | unsent _ _ hexchanges | underway _ _ _ hexchanges =>
        rw [hexchanges] at hcame
        cases hcame
      | answered _ _ _ _ hstages => exact absurd hstage (hstages i).2
  | _ => exact hset

theorem answered_put {g : Stage} (h : Answered c now f)
    (hoffered : ∀ set, Offered c now f set → Offered c now f' set) (hkids : f'.kids = f.kids)
    (hstages : f'.stages = (f.put i g).stages)
    (hg : ∀ r, result? g = some r → ∃ set, Offered c now f' set ∧ r = Cache.answer set (f.kids i)) :
    Answered c now f' := by
  rw [Answered, hkids, hstages]
  refine forall_stages_put (P := fun j g => ∀ r, result? g = some r →
    ∃ set, Offered c now f' set ∧ r = Cache.answer set (f.kids j)) hg fun j _ r hr => ?_
  obtain ⟨set, hset, hanswer⟩ := h j r hr
  exact ⟨set, hoffered set hset, hanswer⟩

/-- **Every result is an answer**, from the set that was fresh before or from the one that came. -/
theorem answered_of_steps (hdecoded : ∃ set, (c.fetch net).result = .ok set)
    (hrequested : Requested c now f) (h : Answered c now f) (hs : Steps f now net i f') :
    Answered c now f' := by
  have hoffered : ∀ set, Offered c now f set → Offered c now f' set :=
    fun set => offered_of_steps hrequested hs
  cases hs with
  | wait | enter | ask | send => exact answered_put h hoffered rfl rfl fun r hr => by cases hr
  | answer _ hpeek =>
    refine answered_put h hoffered rfl rfl fun r hr => ?_
    cases hr
    obtain ⟨s, hs, hanswer⟩ := answer_of_peek hpeek
    exact ⟨s.set, hoffered _ (offered_of_fresh hrequested hs), hanswer⟩
  | settle _ hrecheck =>
    refine answered_put h hoffered rfl rfl fun r hr => ?_
    cases hr
    obtain ⟨s, hs, hanswer⟩ := answer_of_recheck hrecheck
    exact ⟨s.set, hoffered _ (offered_of_fresh hrequested hs), hanswer⟩
  | receive hstage =>
    refine answered_put h hoffered rfl rfl fun r hr => ?_
    cases hr
    obtain ⟨set, hset⟩ := hdecoded
    cases hrequested with
    | unsent _ _ _ hstages => exact absurd hstage (hstages i)
    | underway _ hcache _ hexchanges =>
      exact ⟨set, Or.inr (keySets_of_refresh hcache hexchanges hset _),
        by rw [hcache, refresh_of_ok hset]⟩
    | answered _ _ _ _ hstages => exact absurd hstage (hstages i).2
  | @leave r hstage =>
    refine answered_put h hoffered rfl rfl fun r' hr => ?_
    cases hr
    obtain ⟨set, hset, hanswer⟩ := h i r (by rw [hstage]; rfl)
    exact ⟨set, hoffered set hset, hanswer⟩

/-! ### Any order of the steps -/

/-- What holds of lookups that share a cache, from the start on and after every step. -/
structure Shared (c : Cache) (kids : Fin n → Option String) (now : Nat) (f : Flight n) : Prop where
  orderly : Orderly f
  kids_eq : f.kids = kids
  requested : Requested c now f
  answered : Answered c now f

theorem shared_start (c : Cache) (kids : Fin n → Option String) (now : Nat) :
    Shared c kids now (start c kids) where
  orderly j := by simp [start, InTurn]
  kids_eq := rfl
  requested := .unsent rfl rfl rfl fun j => by simp [start]
  answered j r hr := by cases hr

theorem shared_of_steps (httl : 0 < c.ttl) (hspacing : 0 < c.minRefresh)
    (hdecoded : ∃ set, (c.fetch net).result = .ok set) (h : Shared c kids now f)
    (hs : Steps f now net i f') : Shared c kids now f' where
  orderly := orderly_of_steps h.orderly hs
  kids_eq := by
    rw [← h.kids_eq]
    cases hs <;> rfl
  requested := requested_of_steps httl hspacing hdecoded h.orderly h.requested hs
  answered := answered_of_steps hdecoded h.requested h.answered hs

theorem run_cons (f : Flight n) (m : Move n) (moves : List (Move n)) :
    run f (m :: moves) = (f.step m.now m.net m.lookup).bind fun f => run f moves := by
  rw [run, List.foldlM_cons]
  rfl

/-- **What each step keeps holds after all steps.** -/
theorem invariant_run {P : Flight n → Prop} {moves : List (Move n)} (hrun : run f moves = some f')
    (hstart : P f)
    (hstep : ∀ m ∈ moves, ∀ f f', P f → Steps f m.now m.net m.lookup f' → P f') : P f' := by
  induction moves generalizing f with
  | nil =>
    cases hrun
    exact hstart
  | cons m moves ih =>
    rw [run_cons] at hrun
    obtain ⟨g, hg, hrun⟩ := Option.bind_eq_some_iff.mp hrun
    refine ih hrun ?_ fun m' hm' => hstep m' (List.mem_cons_of_mem _ hm')
    exact hstep m List.mem_cons_self f g hstart (steps_of_step hg)

/-! ### The number of steps -/

/-- The number of steps that led to a stage at least. -/
def rank : Stage → Nat
  | .arrived => 0
  | .waiting => 1
  | .admitted => 2
  | .asking => 3
  | .awaiting => 4
  | .settled _ => 5
  | .done _ => 6

theorem sum_rank_put {g : Stage} (hg : rank (f.stages i) < rank g) :
    ∑ j, rank (f.stages j) < ∑ j, rank ((f.put i g).stages j) := by
  have hle : ∀ j, rank (f.stages j) ≤ rank ((f.put i g).stages j) :=
    forall_stages_put (P := fun j g => rank (f.stages j) ≤ rank g) hg.le fun _ _ => le_rfl
  exact Finset.sum_lt_sum (fun j _ => hle j) ⟨i, Finset.mem_univ i, by rwa [stages_put_self]⟩

theorem sum_rank_of_steps (hs : Steps f now net i f') :
    ∑ j, rank (f.stages j) < ∑ j, rank (f'.stages j) := by
  cases hs <;> exact sum_rank_put (by simp [rank, *])

theorem length_add_sum_rank {moves : List (Move n)} (hrun : run f moves = some f') :
    moves.length + ∑ j, rank (f.stages j) ≤ ∑ j, rank (f'.stages j) := by
  induction moves generalizing f with
  | nil =>
    cases hrun
    simp
  | cons m moves ih =>
    rw [run_cons] at hrun
    obtain ⟨g, hg, hrun⟩ := Option.bind_eq_some_iff.mp hrun
    have hrest := ih hrun
    have hfirst := sum_rank_of_steps (steps_of_step hg)
    rw [List.length_cons]
    omega

/-- **The steps come to an end**: a lookup takes at most six. -/
theorem length_le_of_run {moves : List (Move n)} (hrun : run f moves = some f') :
    moves.length ≤ 6 * n := by
  have hranks : ∑ j, rank (f'.stages j) ≤ ∑ _j : Fin n, 6 :=
    Finset.sum_le_sum fun j _ => by cases f'.stages j <;> simp [rank]
  have htotal : ∑ _j : Fin n, 6 = 6 * n := by simp [mul_comm]
  have hlength := length_add_sum_rank hrun
  omega

/-! ### A lookup that has the cache for itself -/

/-- Some steps of one lookup, with nothing in between, lead to such lookups. -/
def Leads (m : Move n) (f : Flight n) (P : Flight n → Prop) : Prop :=
  ∃ moves f', (∀ m' ∈ moves, m' = m) ∧ run f moves = some f' ∧ P f'

theorem leads_of_step {m : Move n} {P : Flight n → Prop}
    (hstep : f.step m.now m.net m.lookup = some f') (h : Leads m f' P) : Leads m f P := by
  obtain ⟨moves, g, hmoves, hrun, hg⟩ := h
  refine ⟨m :: moves, g, List.forall_mem_cons.mpr ⟨rfl, hmoves⟩, ?_, hg⟩
  rw [run_cons, hstep, Option.bind_some, hrun]

/-- **A lookup that nobody disturbs** takes its steps with the outcome of `Cache.lookup`. -/
theorem run_alone (f : Flight n) (now : Nat) (net : Network) (i : Fin n)
    (hstage : f.stages i = .arrived) (hturn : f.turn = none) :
    Leads ⟨now, net, i⟩ f fun f' => f'.turn = none ∧
      f'.stages i = .done (f.cache.lookup now net (f.kids i)).result ∧
      f'.cache = (f.cache.lookup now net (f.kids i)).cache ∧
      f'.exchanges = f.exchanges ++ (f.cache.lookup now net (f.kids i)).exchanges := by
  unfold Cache.lookup
  cases hpeek : f.cache.peek now (f.kids i) with
  | some r =>
    have hanswer : f.step now net i = some (f.put i (.done r)) := by simp [step, hstage, hpeek]
    refine leads_of_step hanswer ⟨[], _, by simp, rfl, hturn, stages_put_self f i _, rfl, ?_⟩
    exact (List.append_nil _).symm
  | none =>
    have hwait : f.step now net i = some (f.put i .waiting) := by simp [step, hstage, hpeek]
    refine leads_of_step hwait (leads_of_step (by simp [step, hturn]; rfl) ?_)
    cases hrecheck : f.cache.recheck now (f.kids i) with
    | some r =>
      refine leads_of_step (by simp [step, hrecheck]; rfl) (leads_of_step (by simp [step]; rfl) ?_)
      refine ⟨[], _, by simp, rfl, rfl, stages_put_self _ _ _, rfl, (List.append_nil _).symm⟩
    | none =>
      refine leads_of_step (by simp [step, hrecheck]; rfl) (leads_of_step (by simp [step]; rfl) ?_)
      refine leads_of_step (by simp [step]; rfl) (leads_of_step (by simp [step]; rfl) ?_)
      exact ⟨[], _, by simp, rfl, rfl, stages_put_self _ _ _, rfl, rfl⟩

/-! ### All lookups together -/

/-- **One request for all.** Whatever lookups of a cache are under way and in whatever order they
take their steps, while no time passes and every request is answered with a set: at most one request
is sent, and all exchanges are those of its fetch; the steps come to an end, and then every lookup
is done; and every lookup is answered from the set that was fresh at the start or from the only one
that came. -/
theorem lookups_share_request (c : Cache) (httl : 0 < c.ttl) (hspacing : 0 < c.minRefresh)
    (kids : Fin n → Option String) (now : Nat) (moves : List (Move n))
    (hmoves : ∀ m ∈ moves, m.now = now ∧ ∃ set, (c.fetch m.net).result = .ok set) (f : Flight n)
    (hrun : run (start c kids) moves = some f) :
    f.sent.length ≤ 1 ∧ FetchedOnce c moves f ∧ moves.length ≤ 6 * n ∧
      (∀ net, (∀ i, f.step now net i = none) → ∀ i, ∃ r, f.stages i = .done r) ∧
      ∀ i r, f.stages i = .done r → ∃ set, Offered c now f set ∧ r = Cache.answer set (kids i) := by
  obtain ⟨hshared, hfetched⟩ : Shared c kids now f ∧ FetchedOnce c moves f := by
    refine invariant_run (P := fun f => Shared c kids now f ∧ FetchedOnce c moves f) hrun
      ⟨shared_start c kids now, Or.inl rfl⟩ fun m hm g g' hg hs => ?_
    obtain ⟨rfl, hdecoded⟩ := hmoves m hm
    exact ⟨shared_of_steps httl hspacing hdecoded hg.1 hs,
      fetchedOnce_of_steps hm hg.1.requested hg.2 hs⟩
  refine ⟨length_sent_le hshared.requested, hfetched, length_le_of_run hrun,
    fun net hstuck => done_of_stuck hshared.orderly hstuck, fun i r hi => ?_⟩
  obtain ⟨set, hset, hr⟩ := hshared.answered i r (by rw [hi]; rfl)
  exact ⟨set, hset, by rw [hr, hshared.kids_eq]⟩

/-- The network on which the address of the keys gives a set with one key. -/
def keyNetwork : Network :=
  ⟨fun _ _ => .answered 200 none (Text.Utf8.encode
    "\x7b\"keys\":[\x7b\"kid\":\"k\",\"kty\":\"RSA\",\"n\":\"AQAB\",\"e\":\"AQAB\"\x7d]\x7d")⟩

/-- A cache with a set that is fresh, but has no key. -/
def keylessCache : Cache := ⟨"http://a/k", ⟨0⟩, 3600000, 10000, some ⟨⟨[]⟩, 0⟩⟩

/-- Two lookups for the key and one for whatever key there is. -/
def threeKids : Fin 3 → Option String := fun i => if i = 2 then none else some "k"

/-- The first lookup asks for the set while the others wait. -/
def threeMoves : List (Move 3) :=
  ([0, 1, 0, 0, 0, 2, 0, 0, 1, 1, 1, 2, 2, 2] : List (Fin 3)).map (⟨20000, keyNetwork, ·⟩)

/-- All three lookups are done after one request. -/
theorem lookups_share_request_three : 0 < keylessCache.ttl ∧ 0 < keylessCache.minRefresh ∧
    (∀ m ∈ threeMoves, m.now = 20000 ∧ ∃ set, (keylessCache.fetch m.net).result = .ok set) ∧
    ∃ f, run (start keylessCache threeKids) threeMoves = some f ∧
      (∀ i, f.step 20000 keyNetwork i = none) ∧ f.sent.length = 1 ∧
      (∀ i, ∃ r set, f.stages i = .done r ∧ Offered keylessCache 20000 f set ∧
        r = Cache.answer set (threeKids i)) := by
  have hfetch : (keylessCache.fetch keyNetwork).result.toOption.isSome := by decide +kernel
  have hmoves : ∀ m ∈ threeMoves,
      m.now = 20000 ∧ ∃ set, (keylessCache.fetch m.net).result = .ok set := by
    intro m hm
    obtain ⟨i, -, rfl⟩ := List.mem_map.mp hm
    obtain ⟨set, hset⟩ := Option.isSome_iff_exists.mp hfetch
    exact ⟨rfl, set, toOption_eq_some.mp hset⟩
  have hrun : ((run (start keylessCache threeKids) threeMoves).map fun f =>
      decide ((∀ i, (f.step 20000 keyNetwork i).isNone) ∧ f.sent.length = 1)) = some true := by
    decide +kernel
  obtain ⟨f, hf, hend⟩ := Option.map_eq_some_iff.mp hrun
  obtain ⟨hstuck, hsent⟩ := of_decide_eq_true hend
  have hstuck : ∀ i, f.step 20000 keyNetwork i = none :=
    fun i => Option.isNone_iff_eq_none.mp (hstuck i)
  obtain ⟨-, -, -, hdone, hanswered⟩ := lookups_share_request keylessCache (by decide) (by decide)
    threeKids 20000 threeMoves hmoves f hf
  refine ⟨by decide, by decide, hmoves, f, hf, hstuck, hsent, fun i => ?_⟩
  obtain ⟨r, hr⟩ := hdone keyNetwork hstuck i
  obtain ⟨set, hset, hanswer⟩ := hanswered i r hr
  exact ⟨r, set, hr, hset, hanswer⟩

end TokenGate.Proofs.Key.SingleFlight
