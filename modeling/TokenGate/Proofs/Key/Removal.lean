import TokenGate.Proofs.Key.Selection
import TokenGate.Proofs.Key.SingleFlight

/-! # Lookups that come to nothing

A lookup whose request fails, and one that is given up while its request is on its way, changes
nothing for the lookups around it. Whatever the order of the steps was, they can be taken in the
same order without those of this lookup, and what is cached, whose turn it is and how far every
other lookup has come is then the same (`alike_of_failed`). From then on the same events can happen
on both sides, and it stays the same (`traceless_of_failed`). -/

namespace TokenGate.Proofs.Key.Removal

open TokenGate.Http TokenGate.Key TokenGate.Key.Flight
open TokenGate.Proofs.Key.Lookup TokenGate.Proofs.Key.Selection TokenGate.Proofs.Key.SingleFlight

variable {n : Nat} {i j : Fin n} {f f' g : Flight n} {now : Nat} {net : Network}

/-- Lookups that are the same but for one of them and for the requests that were sent. On the second
side it is not the turn of that one. -/
structure AlikeBut (i : Fin n) (f f' : Flight n) : Prop where
  cache : f'.cache = f.cache
  kids : f'.kids = f.kids
  others : ∀ j, j ≠ i → f'.stages j = f.stages j
  turn : f'.turn = f.turn.filter (· ≠ i)

/-- On both sides the same requests were sent and came to an end since. -/
def SentAlike (f g f' g' : Flight n) : Prop :=
  ∃ sent exchanges, (g.sent = f.sent ++ sent ∧ g.exchanges = f.exchanges ++ exchanges) ∧
    g'.sent = f'.sent ++ sent ∧ g'.exchanges = f'.exchanges ++ exchanges

/-- The events that happen to other lookups. -/
def others (i : Fin n) (events : List (Event n)) : List (Event n) :=
  events.filter (·.lookup ≠ i)

/-- A lookup comes to nothing: its request has failed, or it is given up before it has a result, as
it may be while its request is on its way. -/
inductive Failed (i : Fin n) (g : Flight n) : Flight n → Prop
  | unfetched {reason : String} (h : g.stages i = .done (.error (.keyFetch reason))) : Failed i g g
  | abandoned (h : result? (g.stages i) = none) : Failed i g (g.abandon i)

/-- A lookup has a result, and not that nothing could be fetched. -/
def Fruitful (i : Fin n) (f : Flight n) : Prop :=
  ∃ r, result? (f.stages i) = some r ∧ ∀ reason, r ≠ .error (.keyFetch reason)

/-! ### Steps of the lookup that comes to nothing -/

theorem alikeBut_put (h : AlikeBut i f f') {s : Stage} (hcache : g.cache = f.cache)
    (hkids : g.kids = f.kids) (hstages : g.stages = (f.put i s).stages)
    (hturn : g.turn.filter (· ≠ i) = f.turn.filter (· ≠ i)) : AlikeBut i g f' where
  cache := h.cache.trans hcache.symm
  kids := h.kids.trans hkids.symm
  others j hj := by rw [hstages, stages_put_of_ne f hj, h.others j hj]
  turn := h.turn.trans hturn.symm

/-- **A step of the lookup does not show**, unless it receives a set. -/
theorem alikeBut_of_own (h : AlikeBut i f f') (ho : Orderly f) (hs : Steps f now net i g) :
    AlikeBut i g f' ∨ Fruitful i g := by
  cases hs with
  | answer | wait | settle | ask | send => exact Or.inl (alikeBut_put h rfl rfl rfl rfl)
  | enter _ hturn => exact Or.inl (alikeBut_put h rfl rfl rfl (by simp [hturn]))
  | @leave r hstage =>
    have hturn : f.turn = some i := (ho i).mp (by rw [hstage]; trivial)
    exact Or.inl (alikeBut_put h rfl rfl rfl (by simp [hturn, Option.filter_some]))
  | receive =>
    cases hf : (f.cache.fetch net).result with
    | error e =>
      rw [refresh_of_error hf]
      exact Or.inl (alikeBut_put h rfl rfl rfl rfl)
    | ok set =>
      rw [refresh_of_ok hf]
      refine Or.inr ⟨Cache.answer set (f.kids i), ?_, answer_ne_keyFetch set (f.kids i)⟩
      show result? ((f.put i _).stages i) = _
      rw [stages_put_self]
      rfl

/-! ### What happens to the other lookups -/

theorem alikeBut_put_other (h : AlikeBut i f f') {s : Stage} {g g' : Flight n}
    (hcache : g'.cache = g.cache) (hkids : g.kids = f.kids ∧ g'.kids = f'.kids)
    (hstages : g.stages = (f.put j s).stages ∧ g'.stages = (f'.put j s).stages)
    (hturn : g'.turn = g.turn.filter (· ≠ i)) : AlikeBut i g g' where
  cache := hcache
  kids := by rw [hkids.1, hkids.2, h.kids]
  others k hk := by
    rw [hstages.1, hstages.2]
    by_cases hkj : k = j
    · rw [hkj, stages_put_self, stages_put_self]
    · rw [stages_put_of_ne f hkj, stages_put_of_ne f' hkj, h.others k hk]
  turn := hturn

theorem sentAlike_of_eq {g g' : Flight n} (hsent : g.sent = f.sent ∧ g'.sent = f'.sent)
    (hexchanges : g.exchanges = f.exchanges ∧ g'.exchanges = f'.exchanges) : SentAlike f g f' g' :=
  ⟨[], [], by simp [hsent, hexchanges], by simp [hsent, hexchanges]⟩

theorem SentAlike.trans {g' h h' : Flight n} (hfg : SentAlike f g f' g') (hgh : SentAlike g h g' h') :
    SentAlike f h f' h' := by
  obtain ⟨sent, exchanges, ⟨h1, h2⟩, h3, h4⟩ := hfg
  obtain ⟨sent', exchanges', ⟨h5, h6⟩, h7, h8⟩ := hgh
  exact ⟨sent ++ sent', exchanges ++ exchanges', by simp [h1, h2, h5, h6], by simp [h3, h4, h7, h8]⟩

/-- A step that neither passes a turn on nor sends or receives anything. -/
theorem exists_put_other (h : AlikeBut i f f') (j : Fin n) (s : Stage) :
    ∃ g', some (f'.put j s) = some g' ∧ AlikeBut i (f.put j s) g' ∧
      SentAlike f (f.put j s) f' g' :=
  ⟨_, rfl, alikeBut_put_other h h.cache ⟨rfl, rfl⟩ ⟨rfl, rfl⟩ h.turn,
    sentAlike_of_eq ⟨rfl, rfl⟩ ⟨rfl, rfl⟩⟩

/-- **A step of another lookup is the same on both sides.** -/
theorem exists_step_other (h : AlikeBut i f f') (hj : j ≠ i) (hs : f.step now net j = some g) :
    ∃ g', f'.step now net j = some g' ∧ AlikeBut i g g' ∧ SentAlike f g f' g' := by
  -- The step looks at nothing in which the sides differ, but for the turn.
  unfold step at hs ⊢
  rw [h.others j hj, h.cache, h.kids]
  cases hstage : f.stages j with
  | arrived | admitted =>
    rw [hstage] at hs
    dsimp only at hs ⊢
    split at hs <;> cases hs <;> exact exists_put_other h j _
  | waiting =>
    rw [hstage] at hs
    dsimp only at hs ⊢
    split at hs <;> cases hs
    rename_i hturn
    rw [h.turn, hturn]
    exact ⟨_, rfl, alikeBut_put_other h h.cache ⟨rfl, rfl⟩ ⟨rfl, rfl⟩
      (by simp [Option.filter_some, hj]), sentAlike_of_eq ⟨rfl, rfl⟩ ⟨rfl, rfl⟩⟩
  | asking =>
    rw [hstage] at hs
    cases hs
    exact ⟨_, rfl, alikeBut_put_other h h.cache ⟨rfl, rfl⟩ ⟨rfl, rfl⟩ h.turn,
      (target f.cache.uri).toOption.toList, [], ⟨rfl, (List.append_nil _).symm⟩, rfl,
      (List.append_nil _).symm⟩
  | awaiting =>
    rw [hstage] at hs
    cases hs
    exact ⟨_, rfl, alikeBut_put_other h rfl ⟨rfl, rfl⟩ ⟨rfl, rfl⟩ h.turn,
      [], (f.cache.refresh now net (f.kids j)).exchanges, ⟨(List.append_nil _).symm, rfl⟩,
      (List.append_nil _).symm, rfl⟩
  | settled r =>
    rw [hstage] at hs
    cases hs
    exact ⟨_, rfl, alikeBut_put_other h h.cache ⟨rfl, rfl⟩ ⟨rfl, rfl⟩ rfl,
      sentAlike_of_eq ⟨rfl, rfl⟩ ⟨rfl, rfl⟩⟩
  | done r =>
    rw [hstage] at hs
    cases hs

theorem alikeBut_abandon (h : AlikeBut i f f') (j : Fin n) :
    AlikeBut i (f.abandon j) (f'.abandon j) ∧ SentAlike f (f.abandon j) f' (f'.abandon j) := by
  refine ⟨alikeBut_put_other h h.cache ⟨rfl, rfl⟩ ⟨rfl, rfl⟩ ?_,
    sentAlike_of_eq ⟨rfl, rfl⟩ ⟨rfl, rfl⟩⟩
  show f'.turn.filter (· ≠ j) = (f.turn.filter (· ≠ j)).filter (· ≠ i)
  rw [h.turn, Option.filter_filter, Option.filter_filter]
  simp only [Bool.and_comm]

theorem exists_occur_other (h : AlikeBut i f f') {e : Event n} (he : e.lookup ≠ i)
    (ho : f.occur e = some g) :
    ∃ g', f'.occur e = some g' ∧ AlikeBut i g g' ∧ SentAlike f g f' g' := by
  cases e with
  | step m => exact exists_step_other h he ho
  | abandon j =>
    rw [occur] at ho ⊢
    rw [h.others j he]
    split at ho <;> cases ho
    exact ⟨f'.abandon j, rfl, alikeBut_abandon h j⟩

theorem follow_cons (f : Flight n) (e : Event n) (events : List (Event n)) :
    f.follow (e :: events) = (f.occur e).bind (·.follow events) := by
  rw [follow, List.foldlM_cons]
  rfl

/-- **Whatever happens to other lookups is the same on both sides.** -/
theorem follow_alike (h : AlikeBut i f f') {events : List (Event n)}
    (hothers : ∀ e ∈ events, e.lookup ≠ i) (hf : f.follow events = some g) :
    ∃ g', f'.follow events = some g' ∧ AlikeBut i g g' ∧ SentAlike f g f' g' := by
  induction events generalizing f f' with
  | nil =>
    cases hf
    exact ⟨f', rfl, h, sentAlike_of_eq ⟨rfl, rfl⟩ ⟨rfl, rfl⟩⟩
  | cons e events ih =>
    obtain ⟨he, hevents⟩ := List.forall_mem_cons.mp hothers
    rw [follow_cons] at hf
    obtain ⟨f1, hf1, hf⟩ := Option.bind_eq_some_iff.mp hf
    obtain ⟨f1', hf1', h1, hsent1⟩ := exists_occur_other h he hf1
    obtain ⟨g', hg', hg, hsent⟩ := ih h1 hevents hf
    exact ⟨g', by rw [follow_cons, hf1', Option.bind_some, hg'], hg, hsent1.trans hsent⟩

theorem AlikeBut.symm (h : AlikeBut i f f') (hturn : f.turn ≠ some i) : AlikeBut i f' f where
  cache := h.cache.symm
  kids := h.kids.symm
  others j hj := (h.others j hj).symm
  turn := by
    have hkept : f.turn.filter (· ≠ i) = f.turn := by
      cases ht : f.turn with
      | none => rfl
      | some k =>
        have hk : k ≠ i := fun e => hturn (ht.trans (congrArg some e))
        simp [Option.filter_some, hk]
    rw [h.turn, hkept, hkept]

/-- **The same events of other lookups can happen on both sides**, and the sides stay alike. -/
theorem rel_follow (h : AlikeBut i f f') (hturn : f.turn ≠ some i) {events : List (Event n)}
    (hothers : ∀ e ∈ events, e.lookup ≠ i) :
    Option.Rel (fun g g' => AlikeBut i g g' ∧ SentAlike f g f' g') (f.follow events)
      (f'.follow events) := by
  cases hf : f.follow events with
  | some g =>
    obtain ⟨g', hg', hgg⟩ := follow_alike h hothers hf
    rw [hg']
    exact .some hgg
  | none =>
    cases hf' : f'.follow events with
    | none => exact .none
    | some g' =>
      obtain ⟨g, hg, -⟩ := follow_alike (h.symm hturn) hothers hf'
      rw [hg] at hf
      cases hf

/-! ### Leaving the lookup out -/

theorem orderly_abandon (h : Orderly f) (i : Fin n) : Orderly (f.abandon i) := by
  refine forall_stages_put (P := fun j s => InTurn s ↔ f.turn.filter (· ≠ i) = some j) ?_ ?_
  · simp [InTurn, Option.filter_eq_some_iff]
  · intro j hj
    rw [h j, Option.filter_eq_some_iff]
    simp [hj]

theorem orderly_of_occur (h : Orderly f) {e : Event n} (ho : f.occur e = some g) : Orderly g := by
  cases e with
  | step m => exact orderly_of_steps h (steps_of_step ho)
  | abandon j =>
    rw [occur] at ho
    split at ho <;> cases ho
    exact orderly_abandon h j

/-- What happens to another lookup leaves this one where it is. -/
theorem stages_of_occur_ne {e : Event n} (he : e.lookup ≠ i) (ho : f.occur e = some g) :
    g.stages i = f.stages i := by
  have hi : i ≠ e.lookup := Ne.symm he
  cases e with
  | step m => cases steps_of_step ho <;> exact stages_put_of_ne f hi _
  | abandon j =>
    rw [occur] at ho
    split at ho <;> cases ho
    exact stages_put_of_ne f hi _

/-- A lookup that has a result takes no step but to pass its turn on. -/
theorem fruitful_of_own (h : Fruitful i f) (hs : Steps f now net i g) : Fruitful i g := by
  obtain ⟨r, hr, hfruit⟩ := h
  cases hs with
  | leave hstage =>
    rw [hstage] at hr
    cases hr
    exact ⟨r, by rw [stages_put_self]; rfl, hfruit⟩
  | answer hstage | wait hstage | enter hstage | settle hstage | ask hstage | send hstage
  | receive hstage =>
    rw [hstage] at hr
    cases hr

theorem fruitful_of_occur (h : Fruitful i f) {e : Event n} (he : e ≠ .abandon i)
    (ho : f.occur e = some g) : Fruitful i g := by
  by_cases hi : e.lookup = i
  · cases e with
    | step m =>
      obtain rfl := hi
      exact fruitful_of_own h (steps_of_step ho)
    | abandon j => exact absurd (congrArg Event.abandon hi) he
  · obtain ⟨r, hr, hfruit⟩ := h
    exact ⟨r, by rw [stages_of_occur_ne hi ho, hr], hfruit⟩

theorem fruitful_of_follow (h : Fruitful i f) {events : List (Event n)}
    (hkept : ∀ e ∈ events, e ≠ .abandon i) (hf : f.follow events = some g) : Fruitful i g := by
  induction events generalizing f with
  | nil =>
    cases hf
    exact h
  | cons e events ih =>
    obtain ⟨he, hevents⟩ := List.forall_mem_cons.mp hkept
    rw [follow_cons] at hf
    obtain ⟨f1, hf1, hf⟩ := Option.bind_eq_some_iff.mp hf
    exact ih (fruitful_of_occur h he hf1) hevents hf

/-- **A lookup that receives no set can be left out.** The others go through the same events without
it. -/
theorem follow_without (h : AlikeBut i f f') (ho : Orderly f) {events : List (Event n)}
    (hkept : ∀ e ∈ events, e ≠ .abandon i) (hf : f.follow events = some g) (hg : ¬Fruitful i g) :
    Orderly g ∧ ∃ g', f'.follow (others i events) = some g' ∧ AlikeBut i g g' := by
  induction events generalizing f f' with
  | nil =>
    cases hf
    exact ⟨ho, f', rfl, h⟩
  | cons e events ih =>
    obtain ⟨he, hevents⟩ := List.forall_mem_cons.mp hkept
    rw [follow_cons] at hf
    obtain ⟨f1, hf1, hrest⟩ := Option.bind_eq_some_iff.mp hf
    have ho1 : Orderly f1 := orderly_of_occur ho hf1
    by_cases hi : e.lookup = i
    · rw [others, List.filter_cons_of_neg (by simpa using hi)]
      cases e with
      | step m =>
        obtain rfl := hi
        rcases alikeBut_of_own h ho (steps_of_step hf1) with h1 | hfruit
        · exact ih h1 ho1 hevents hrest
        · exact absurd (fruitful_of_follow hfruit hevents hrest) hg
      | abandon j => exact absurd (congrArg Event.abandon hi) he
    · obtain ⟨f1', hf1', h1, -⟩ := exists_occur_other h hi hf1
      obtain ⟨hog, g', hg', hgg⟩ := ih h1 ho1 hevents hrest
      refine ⟨hog, g', ?_, hgg⟩
      rw [others, List.filter_cons_of_pos (by simpa using hi), follow_cons, hf1', Option.bind_some]
      exact hg'

theorem alikeBut_start (c : Cache) (kids : Fin n → Option String) (i : Fin n) :
    AlikeBut i (start c kids) (start c kids) :=
  ⟨rfl, rfl, fun _ _ => rfl, rfl⟩

theorem not_fruitful_of_failed {h : Flight n} (hfailed : Failed i g h) : ¬Fruitful i g := by
  rintro ⟨r, hr, hfruit⟩
  cases hfailed with
  | @unfetched reason hstage =>
    rw [hstage] at hr
    cases hr
    exact hfruit reason rfl
  | abandoned hnone =>
    rw [hnone] at hr
    cases hr

/-- **A lookup that came to nothing might as well not have been made.** It is not its turn, and the
others have come, through the events for them, to a cache, a turn and stages that are the same
without it. -/
theorem alike_of_failed {c : Cache} {kids : Fin n → Option String} {events : List (Event n)}
    (hkept : ∀ e ∈ events, e ≠ .abandon i) (hf : (start c kids).follow events = some g) {h : Flight n}
    (hfailed : Failed i g h) :
    h.turn ≠ some i ∧ ∃ h', (start c kids).follow (others i events) = some h' ∧ AlikeBut i h h' := by
  obtain ⟨ho, g', hg', hgg⟩ := follow_without (alikeBut_start c kids i) (shared_start c kids 0).orderly
    hkept hf (not_fruitful_of_failed hfailed)
  cases hfailed with
  | unfetched hstage =>
    refine ⟨fun hturn => ?_, g', hg', hgg⟩
    have hin : InTurn (g.stages i) := (ho i).mpr hturn
    rw [hstage] at hin
    exact hin
  | abandoned =>
    refine ⟨by simp [abandon, Option.filter_eq_some_iff], g', hg', ?_⟩
    exact alikeBut_put hgg rfl rfl rfl (by simp [abandon, Option.filter_filter])

/-- A lookup leaves no trace among others that go through the same events. It has not kept its turn.
If there was nobody else, the cache is as it was and it is nobody's turn. In any case the others
have come as far without it, and whatever happens to them afterwards can happen on both sides and
leaves them alike. -/
structure Traceless (c : Cache) (kids : Fin n → Option String) (i : Fin n) (events : List (Event n))
    (h : Flight n) : Prop where
  released : h.turn ≠ some i
  alone : (∀ e ∈ events, e.lookup = i) → h.cache = c ∧ h.turn = none
  without : ∃ h', (start c kids).follow (others i events) = some h' ∧ AlikeBut i h h' ∧
    ∀ later, (∀ e ∈ later, e.lookup ≠ i) →
      Option.Rel (fun f f' => AlikeBut i f f' ∧ SentAlike h f h' f') (h.follow later)
        (h'.follow later)

/-- **A lookup that came to nothing leaves no trace.** One that is asked for again after it was
given up counts as another. -/
theorem traceless_of_failed {c : Cache} {kids : Fin n → Option String} {events : List (Event n)}
    (hkept : ∀ e ∈ events, e ≠ .abandon i) (hf : (start c kids).follow events = some g) {h : Flight n}
    (hfailed : Failed i g h) : Traceless c kids i events h := by
  obtain ⟨hturn, h', hh', halike⟩ := alike_of_failed hkept hf hfailed
  refine ⟨hturn, fun halone => ?_, h', hh', halike, fun later => rel_follow halike hturn⟩
  have hnone : others i events = [] := List.filter_eq_nil_iff.mpr (by simpa using halone)
  rw [hnone] at hh'
  obtain rfl : start c kids = h' := Option.some.inj hh'
  exact ⟨halike.cache.symm, (halike.symm hturn).turn⟩

/-! ### A lookup for itself -/

/-- **A lookup that fails to fetch leaves the cache as it is.** -/
theorem cache_of_keyFetch {c : Cache} {kid : Option String} {reason : String}
    (h : (c.lookup now net kid).result = .error (.keyFetch reason)) :
    (c.lookup now net kid).cache = c := by
  rcases lookup_cases c now net kid with ⟨s, -, -, hl⟩ | ⟨-, hl⟩
  · rw [hl]
  · rw [hl] at h ⊢
    cases hf : (c.fetch net).result with
    | error e => rw [refresh_of_error hf]
    | ok set =>
      rw [refresh_of_ok hf] at h
      exact absurd h (answer_ne_keyFetch set kid reason)

end TokenGate.Proofs.Key.Removal
