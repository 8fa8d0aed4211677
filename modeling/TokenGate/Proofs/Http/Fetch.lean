import TokenGate.Http.Fetch
import TokenGate.Proofs.Results
import Mathlib.Data.List.Chain

/-! # What a fetch does

A fetch leaves a trail of exchanges: the first is at its address, and each further one is where the
one before it redirects to (`trail_get`). It ends with an answer exactly if the network gives one,
at once or behind no more redirects than are followed (`get_eq_ok`), and of all its exchanges only
the last has that answer (`answers_exchanges_get`). -/

namespace TokenGate.Proofs.Http.Fetch

open TokenGate.Http TokenGate.Proofs.Results

/-- A request is answered after some exchanges: at once, or where it is redirected to. -/
inductive Answers (net : Network) : Nat → List Exchange → Url → Answer → Prop
  | direct {redirects status : Nat} {earlier : List Exchange} {u : Url} {location : Option String}
      {body : List UInt8} (hreply : net.reply earlier u = .answered status location body)
      (hdirect : (net.exchange earlier u).redirect? = none) :
      Answers net redirects earlier u ⟨u, status, body⟩
  | redirected {redirects : Nat} {earlier : List Exchange} {u next : Url} {a : Answer}
      (hnext : (net.exchange earlier u).redirect? = some next) (hweb : next.isWeb = true)
      (h : Answers net redirects (earlier ++ [net.exchange earlier u]) next a) :
      Answers net (redirects + 1) earlier u a

/-- The exchanges of a fetch from a URL, each further one where the one before it redirects to. -/
structure Trail (net : Network) (earlier : List Exchange) (u : Url) (es : List Exchange) : Prop where
  first : es.head? = some (net.exchange earlier u)
  redirected : es.IsChain fun e e' => e.redirect? = some e'.url
  replied : ∀ before e after, es = before ++ e :: after → e = net.exchange (earlier ++ before) e.url
  few : es.length ≤ maxRedirects + 1

/-- The answer that an exchange ends a fetch with. -/
def answer? (e : Exchange) : Option Answer :=
  match e.redirect?, e.reply with
  | none, .answered status _ body => some ⟨e.url, status, body⟩
  | _, _ => none

/-- What sending a request comes to: it is the last one of the fetch, and the answer is taken or the
redirect is not followed; or it leads to another one. -/
inductive Sends (c : Client) (net : Network) (origin : Url) :
    Nat → List Exchange → Url → Fetch Answer → Prop
  | last {redirects : Nat} {earlier : List Exchange} {u : Url}
      (hlast : (net.exchange earlier u).redirect? = none) :
      Sends c net origin redirects earlier u (c.conclude origin (net.exchange earlier u))
  | refused {redirects : Nat} {earlier : List Exchange} {u next : Url} {f : FetchFault}
      (hnext : (net.exchange earlier u).redirect? = some next)
      (hrefused : redirects = 0 ∨ next.isWeb = false) :
      Sends c net origin redirects earlier u ⟨.error f, [net.exchange earlier u], 0⟩
  | redirected {redirects : Nat} {earlier : List Exchange} {u next : Url} {f : Fetch Answer}
      (hnext : (net.exchange earlier u).redirect? = some next) (hweb : next.isWeb = true)
      (h : Sends c net origin redirects (earlier ++ [net.exchange earlier u]) next f) :
      Sends c net origin (redirects + 1) earlier u (f.behind (net.exchange earlier u))

variable {c : Client} {net : Network} {origin u : Url} {redirects : Nat} {earlier : List Exchange}
variable {address : String} {a : Answer} {e : Exchange} {es : List Exchange} {f : Fetch Answer}

/-! ### One request -/

theorem answer?_eq_some : answer? e = some a ↔ e.redirect? = none ∧
    ∃ status location body, e.reply = .answered status location body ∧ a = ⟨e.url, status, body⟩ := by
  unfold answer?
  cases e.redirect? with
  | some next => simp
  | none => cases e.reply <;> simp [eq_comm]

theorem answer?_of_redirect {next : Url} (h : e.redirect? = some next) : answer? e = none := by
  unfold answer?
  rw [h]

theorem exchanges_conclude (c : Client) (origin : Url) (e : Exchange) :
    (c.conclude origin e).exchanges = [e] := by
  unfold Client.conclude
  cases e.reply <;> rfl

theorem result_conclude (h : e.redirect? = none) :
    (c.conclude origin e).result.toOption = answer? e := by
  unfold Client.conclude answer?
  rw [h]
  cases e.reply <;> rfl

theorem elapsed_conclude (h : (c.conclude origin e).result = .ok a) :
    (c.conclude origin e).elapsed = 0 := by
  unfold Client.conclude at h ⊢
  cases hreply : e.reply with
  | silent =>
    rw [hreply] at h
    cases h
  | _ => rfl

/-- **What sending a request comes to.** -/
theorem sends_send (c : Client) (net : Network) (origin : Url) (redirects : Nat)
    (earlier : List Exchange) (u : Url) :
    Sends c net origin redirects earlier u (c.send net origin redirects earlier u) := by
  induction redirects generalizing earlier u with
  | zero =>
    unfold Client.send
    dsimp only
    cases hnext : (net.exchange earlier u).redirect? with
    | none => exact .last hnext
    | some next => exact .refused hnext (Or.inl rfl)
  | succ redirects ih =>
    unfold Client.send
    dsimp only
    cases hnext : (net.exchange earlier u).redirect? with
    | none => exact .last hnext
    | some next =>
      dsimp only
      by_cases hweb : next.isWeb = true
      · rw [if_pos hweb]
        exact .redirected hnext hweb (ih _ _)
      · rw [if_neg hweb]
        exact .refused hnext (Or.inr (Bool.not_eq_true _ ▸ hweb))

theorem eq_conclude_of_sends (h : Sends c net origin redirects earlier u f)
    (hdirect : (net.exchange earlier u).redirect? = none) :
    f = c.conclude origin (net.exchange earlier u) := by
  cases h with
  | last => rfl
  | refused hnext => cases hdirect.symm.trans hnext
  | redirected hnext => cases hdirect.symm.trans hnext

/-! ### All requests of a fetch -/

theorem head?_of_sends (h : Sends c net origin redirects earlier u f) :
    f.exchanges.head? = some (net.exchange earlier u) := by
  cases h with
  | last => rw [exchanges_conclude]; rfl
  | refused => rfl
  | redirected => rfl

theorem isChain_of_sends (h : Sends c net origin redirects earlier u f) :
    f.exchanges.IsChain fun e e' => e.redirect? = some e'.url := by
  induction h with
  | last =>
    rw [exchanges_conclude]
    exact .singleton _
  | refused => exact .singleton _
  | redirected hnext _ h ih =>
    rw [Fetch.exchanges_behind, List.isChain_cons]
    refine ⟨fun e' he' => ?_, ih⟩
    rw [head?_of_sends h] at he'
    obtain rfl := Option.mem_some_iff.mp he'
    exact hnext

theorem eq_exchange_of_singleton {before after : List Exchange}
    (hes : [net.exchange earlier u] = before ++ e :: after) :
    e = net.exchange (earlier ++ before) e.url := by
  obtain ⟨rfl, htail⟩ | ⟨rest, -, htail⟩ := List.cons_eq_append_iff.mp hes
  · obtain rfl := (List.cons.inj htail).1
    rw [List.append_nil]
    rfl
  · simp at htail

theorem replied_of_sends (h : Sends c net origin redirects earlier u f)
    {before after : List Exchange} (hes : f.exchanges = before ++ e :: after) :
    e = net.exchange (earlier ++ before) e.url := by
  induction h generalizing before with
  | last =>
    rw [exchanges_conclude] at hes
    exact eq_exchange_of_singleton hes
  | refused => exact eq_exchange_of_singleton hes
  | redirected _ _ _ ih =>
    rw [Fetch.exchanges_behind] at hes
    obtain ⟨rfl, htail⟩ | ⟨rest, rfl, htail⟩ := List.cons_eq_append_iff.mp hes
    · obtain rfl := (List.cons.inj htail).1
      rw [List.append_nil]
      rfl
    · rw [ih htail, List.append_assoc]
      rfl

theorem length_of_sends (h : Sends c net origin redirects earlier u f) :
    f.exchanges.length ≤ redirects + 1 := by
  induction h with
  | last =>
    rw [exchanges_conclude]
    exact Nat.le_add_left 1 _
  | refused => exact Nat.le_add_left 1 _
  | redirected _ _ _ ih =>
    rw [Fetch.exchanges_behind, List.length_cons]
    omega

/-- **Only the last exchange has an answer that is taken**, and it is the one that the fetch ends
with. -/
theorem answers_of_sends (h : Sends c net origin redirects earlier u f) :
    f.exchanges.filterMap answer? = f.result.toOption.toList := by
  induction h with
  | last hlast =>
    rw [exchanges_conclude, result_conclude hlast]
    cases hanswer : answer? _ with
    | none => rw [List.filterMap_cons_none hanswer]; rfl
    | some a => rw [List.filterMap_cons_some hanswer]; rfl
  | refused hnext => rw [List.filterMap_cons_none (answer?_of_redirect hnext)]; rfl
  | redirected hnext _ _ ih =>
    rw [Fetch.exchanges_behind, List.filterMap_cons_none (answer?_of_redirect hnext), ih]
    rfl

theorem answers_iff_of_redirect {next : Url}
    (hnext : (net.exchange earlier u).redirect? = some next) :
    Answers net redirects earlier u a ↔ ∃ left, redirects = left + 1 ∧ next.isWeb = true ∧
      Answers net left (earlier ++ [net.exchange earlier u]) next a := by
  constructor
  · intro h
    cases h with
    | direct _ hdirect =>
      rw [hdirect] at hnext
      cases hnext
    | redirected hnext' hweb h =>
      rw [hnext'] at hnext
      cases hnext
      exact ⟨_, rfl, hweb, h⟩
  · rintro ⟨left, rfl, hweb, h⟩
    exact .redirected hnext hweb h

theorem answers_iff_of_last (hlast : (net.exchange earlier u).redirect? = none) :
    Answers net redirects earlier u a ↔ answer? (net.exchange earlier u) = some a := by
  rw [answer?_eq_some]
  constructor
  · intro h
    cases h with
    | direct hreply => exact ⟨hlast, _, _, _, hreply, rfl⟩
    | redirected hnext =>
      rw [hlast] at hnext
      cases hnext
  · rintro ⟨-, status, location, body, hreply, rfl⟩
    exact .direct hreply hlast

/-- **A fetch ends with an answer exactly if the network gives it**, at once or behind redirects. -/
theorem result_of_sends (h : Sends c net origin redirects earlier u f) :
    f.result = .ok a ↔ Answers net redirects earlier u a := by
  induction h with
  | last hlast => rw [answers_iff_of_last hlast, ← result_conclude hlast, toOption_eq_some]
  | refused hnext hrefused =>
    rw [answers_iff_of_redirect hnext]
    refine iff_of_false nofun ?_
    rintro ⟨left, rfl, hweb, -⟩
    simp [hweb] at hrefused
  | redirected hnext hweb _ ih =>
    rw [Fetch.result_behind, ih, answers_iff_of_redirect hnext]
    exact ⟨fun h => ⟨_, rfl, hweb, h⟩, fun ⟨left, hleft, _, h⟩ => Nat.succ.inj hleft ▸ h⟩

theorem elapsed_of_sends (h : Sends c net origin redirects earlier u f) (hok : f.result = .ok a) :
    f.elapsed = 0 := by
  induction h with
  | last => exact elapsed_conclude hok
  | refused => rfl
  | redirected _ _ _ ih =>
    rw [Fetch.elapsed_behind]
    exact ih hok

/-! ### Fetches -/

/-- **A trail whose first exchange redirects nowhere has no other.** -/
theorem Trail.eq_singleton (h : Trail net earlier u es)
    (hdirect : (net.exchange earlier u).redirect? = none) : es = [net.exchange earlier u] := by
  obtain ⟨rest, rfl⟩ := List.head?_eq_some_iff.mp h.first
  cases rest with
  | nil => rfl
  | cons e' rest =>
    have hnext := (List.isChain_cons_cons.mp h.redirected).1
    rw [hdirect] at hnext
    cases hnext

theorem Trail.eq_of_head? (h : Trail net earlier u es) (he : es.head? = some e)
    (hdirect : e.redirect? = none) : es = [e] := by
  rw [h.first] at he
  obtain rfl := Option.some.inj he
  exact h.eq_singleton hdirect

theorem get_of_target (h : target address = .ok u) :
    Sends c net u maxRedirects earlier u (c.get net earlier address) := by
  unfold Client.get
  rw [h]
  exact sends_send c net u maxRedirects earlier u

theorem get_of_target_error {fault : FetchFault} (h : target address = .error fault) :
    c.get net earlier address = ⟨.error fault, [], 0⟩ := by
  unfold Client.get
  rw [h]

/-- A fetch from an address that redirects nobody is over with its first exchange. -/
theorem get_of_direct (h : target address = .ok u)
    (hdirect : (net.exchange earlier u).redirect? = none) :
    c.get net earlier address = c.conclude u (net.exchange earlier u) :=
  eq_conclude_of_sends (get_of_target h) hdirect

/-- **The exchanges of a fetch are a trail from its address.** -/
theorem trail_get (c : Client) (h : target address = .ok u) :
    Trail net earlier u (c.get net earlier address).exchanges where
  first := head?_of_sends (get_of_target h)
  redirected := isChain_of_sends (get_of_target h)
  replied _ _ _ hes := replied_of_sends (get_of_target h) hes
  few := length_of_sends (get_of_target h)

/-- **What is fetched**: what the network answers, at once or behind as many redirects as are
followed. -/
theorem get_eq_ok : (c.get net earlier address).result = .ok a ↔
    ∃ u, target address = .ok u ∧ Answers net maxRedirects earlier u a := by
  cases h : target address with
  | error fault =>
    rw [get_of_target_error h]
    simp
  | ok u =>
    rw [result_of_sends (get_of_target h)]
    simp

theorem answers_exchanges_get (c : Client) (net : Network) (earlier : List Exchange)
    (address : String) : (c.get net earlier address).exchanges.filterMap answer? =
      (c.get net earlier address).result.toOption.toList := by
  cases h : target address with
  | error fault =>
    rw [get_of_target_error h]
    rfl
  | ok u => exact answers_of_sends (get_of_target h)

theorem send_congr (hnet : ∀ e e' u, net.reply e u = net.reply e' u) (c : Client) (origin : Url)
    (redirects : Nat) (earlier earlier' : List Exchange) (u : Url) :
    c.send net origin redirects earlier u = c.send net origin redirects earlier' u := by
  have hexchange : ∀ e e' u, net.exchange e u = net.exchange e' u :=
    fun e e' u => congrArg (Exchange.mk u) (hnet e e' u)
  induction redirects generalizing earlier earlier' u with
  | zero =>
    unfold Client.send
    dsimp only
    rw [hexchange earlier earlier']
    cases (net.exchange earlier' u).redirect? <;> rfl
  | succ redirects ih =>
    unfold Client.send
    dsimp only
    rw [hexchange earlier earlier']
    cases (net.exchange earlier' u).redirect? with
    | none => rfl
    | some next =>
      dsimp only
      rw [ih (earlier ++ _) (earlier' ++ [net.exchange earlier' u])]

theorem get_congr (hnet : ∀ e e' u, net.reply e u = net.reply e' u) (c : Client)
    (earlier earlier' : List Exchange) (address : String) :
    c.get net earlier address = c.get net earlier' address := by
  unfold Client.get
  cases target address with
  | error fault => rfl
  | ok u => exact send_congr hnet c u maxRedirects earlier earlier' u

theorem elapsed_get (h : (c.get net earlier address).result = .ok a) :
    (c.get net earlier address).elapsed = 0 := by
  obtain ⟨u, hu, -⟩ := get_eq_ok.mp h
  exact elapsed_of_sends (get_of_target hu) h

end TokenGate.Proofs.Http.Fetch
