import TokenGate.Http.Fetch
import TokenGate.Key.Jwk
import TokenGate.Token.Fault

/-!
# The key cache of a provider

Keys are fetched when they are first needed and stay fresh for a time to live. A token whose key is
not in a fresh set makes the set be fetched again, but not before a least time has passed since the
last fetch. A fetch that succeeds replaces the set as a whole, and one that fails changes nothing.

A lookup goes through up to three steps. The first looks at a fresh set without waiting for anyone;
it leaves open what to do about a key that is not there. The second looks again, as the only one who
may fetch, and refuses such a key if the set was fetched too recently. The third fetches. Instants
and durations are in milliseconds.
-/

/-!
## Choosing a key of a set

A token that names a key gets the first one of that name; a token that names none gets the only key
of the set, and with several keys the choice is ambiguous. A key that cannot check signatures is
none.
-/

namespace TokenGate.Key

/-- The key of a set for a token that names a key, or none. -/
def select (set : JwkSet) : Option String → Except VerifyFault (Option VerifyingKey)
  | some kid => .ok ((set.keys.find? (·.kid = some kid)).bind (·.parameters.toKey?))
  | none =>
    match set.keys with
    | [] => .ok none
    | [only] => .ok only.parameters.toKey?
    | _ => .error .missingKeyId

/-- The refusal of a token whose key is not there. -/
def unknown (kid : Option String) : VerifyFault := .unknownKeyId (kid.getD "<none>")

/-! ## Lookups -/

open TokenGate.Http

/-- A key set and the instant at which it came. -/
structure CachedSet where
  set : JwkSet
  fetchedAt : Nat
  deriving DecidableEq, Repr

/-- The key cache of a provider. -/
structure Cache where
  /-- Where the keys are. -/
  uri : String
  client : Client
  /-- How long a set stays fresh. -/
  ttl : Nat
  /-- The least time between fetches for keys that are not in a fresh set. -/
  minRefresh : Nat
  cached : Option CachedSet
  deriving DecidableEq, Repr

/-- What a lookup does. -/
structure Lookup where
  result : Except VerifyFault VerifyingKey
  /-- The cache afterwards. -/
  cache : Cache
  exchanges : List Exchange
  elapsed : Nat

namespace Cache

/-- An empty cache. -/
def empty (client : Client) (uri : String) (ttl minRefresh : Nat) : Cache :=
  ⟨uri, client, ttl, minRefresh, none⟩

/-- The cached set, while it is fresh. -/
def fresh? (c : Cache) (now : Nat) : Option CachedSet :=
  c.cached.filter fun s => now - s.fetchedAt < c.ttl

/-- The answer of a fresh set, unless the key is not there. -/
def peek (c : Cache) (now : Nat) (kid : Option String) : Option (Except VerifyFault VerifyingKey) :=
  match c.fresh? now with
  | none => none
  | some s =>
    match select s.set kid with
    | .error f => some (.error f)
    | .ok (some k) => some (.ok k)
    | .ok none => none

/-- The answer of a fresh set, unless the key is not there and may be fetched. -/
def recheck (c : Cache) (now : Nat) (kid : Option String) :
    Option (Except VerifyFault VerifyingKey) :=
  match c.fresh? now with
  | none => none
  | some s =>
    match select s.set kid with
    | .error f => some (.error f)
    | .ok (some k) => some (.ok k)
    | .ok none => if now - s.fetchedAt < c.minRefresh then some (.error (unknown kid)) else none

/-- The answer of a set that has just come. -/
def answer (set : JwkSet) (kid : Option String) : Except VerifyFault VerifyingKey :=
  match select set kid with
  | .error f => .error f
  | .ok (some k) => .ok k
  | .ok none => .error (unknown kid)

/-- Reads a key set from an answer. -/
def readSet (a : Answer) : Except FetchFault JwkSet := do
  let a ← a.checked
  match Json.readBytes JwkSet.shape a.body with
  | .ok set => return set
  | .error _ => .error (.decode a.url)

/-- Fetches the key set. -/
def fetch (c : Cache) (net : Network) : Fetch JwkSet :=
  (c.client.get net [] c.uri).andThen readSet

/-- The lookup of a key in a set that is fetched for it. -/
def refresh (c : Cache) (now : Nat) (net : Network) (kid : Option String) : Lookup :=
  let f := c.fetch net
  match f.result with
  | .error e => ⟨.error (.keyFetch e.message), c, f.exchanges, f.elapsed⟩
  | .ok set =>
    ⟨answer set kid, { c with cached := some ⟨set, now⟩ }, f.exchanges, f.elapsed⟩

/-- The key for a token that names a key, or none. -/
def lookup (c : Cache) (now : Nat) (net : Network) (kid : Option String) : Lookup :=
  match c.peek now kid with
  | some r => ⟨r, c, [], 0⟩
  | none =>
    match c.recheck now kid with
    | some r => ⟨r, c, [], 0⟩
    | none => c.refresh now net kid

end Cache

/-!
## Lookups at the same time

Several lookups of one cache may be under way at once. Each takes its own steps in their order, and
between any two of them the others may take theirs. The first look at a fresh set waits for nobody.
All further steps are for one lookup at a time: the second look, the request, and its answer, which
is in the cache before the turn is passed on.

A lookup may also be given up by whoever asked for it, at any time before it is done. It then takes
no further step, and if it was its turn, the turn is passed on.
-/

/-- How far a lookup has come. -/
inductive Stage
  /-- Nothing has been looked at. -/
  | arrived
  /-- A fresh set leaves the key open, and the lookup waits for its turn. -/
  | waiting
  /-- The lookup has its turn, and is to look again. -/
  | admitted
  /-- A request is to be sent. -/
  | asking
  /-- The request is sent. -/
  | awaiting
  /-- The result is there, and the turn is to be passed on. -/
  | settled (result : Except VerifyFault VerifyingKey)
  | done (result : Except VerifyFault VerifyingKey)

/-- Some lookups of one cache, each under its number. -/
structure Flight (n : Nat) where
  cache : Cache
  /-- The keys that the lookups are for. -/
  kids : Fin n → Option String
  stages : Fin n → Stage
  /-- The lookup whose turn it is. -/
  turn : Option (Fin n)
  /-- Where requests were sent; it shows in the exchanges where these are redirected. -/
  sent : List Url
  /-- The exchanges of the requests that came to an end. -/
  exchanges : List Exchange

namespace Flight

variable {n : Nat}

/-- Lookups that have just arrived. -/
def start (c : Cache) (kids : Fin n → Option String) : Flight n :=
  ⟨c, kids, fun _ => .arrived, none, [], []⟩

/-- Puts a lookup at a stage. -/
def put (f : Flight n) (i : Fin n) (g : Stage) : Flight n :=
  { f with stages := fun j => if j = i then g else f.stages j }

@[simp] theorem stages_put_self (f : Flight n) (i : Fin n) (g : Stage) :
    (f.put i g).stages i = g := if_pos rfl

theorem stages_put_of_ne (f : Flight n) {i j : Fin n} (h : j ≠ i) (g : Stage) :
    (f.put i g).stages j = f.stages j := if_neg h

/-- What is to hold of all lookups holds of the one that was put at a stage, and of the others. -/
theorem forall_stages_put {P : Fin n → Stage → Prop} {f : Flight n} {i : Fin n} {g : Stage}
    (hi : P i g) (h : ∀ j, j ≠ i → P j (f.stages j)) : ∀ j, P j ((f.put i g).stages j) := by
  intro j
  by_cases hj : j = i
  · subst hj
    rw [stages_put_self]
    exact hi
  · rw [stages_put_of_ne f hj]
    exact h j hj

@[simp] theorem cache_put (f : Flight n) (i : Fin n) (g : Stage) : (f.put i g).cache = f.cache := rfl

@[simp] theorem kids_put (f : Flight n) (i : Fin n) (g : Stage) : (f.put i g).kids = f.kids := rfl

@[simp] theorem turn_put (f : Flight n) (i : Fin n) (g : Stage) : (f.put i g).turn = f.turn := rfl

/-- The next step of a lookup, at an instant and with what the network answers then; there is none
if it waits for its turn or is done. -/
def step (f : Flight n) (now : Nat) (net : Network) (i : Fin n) : Option (Flight n) :=
  match f.stages i with
  | .arrived =>
    match f.cache.peek now (f.kids i) with
    | some r => some (f.put i (.done r))
    | none => some (f.put i .waiting)
  | .waiting =>
    match f.turn with
    | none => some { f.put i .admitted with turn := some i }
    | some _ => none
  | .admitted =>
    match f.cache.recheck now (f.kids i) with
    | some r => some (f.put i (.settled r))
    | none => some (f.put i .asking)
  | .asking =>
    some { f.put i .awaiting with sent := f.sent ++ (target f.cache.uri).toOption.toList }
  | .awaiting =>
    let l := f.cache.refresh now net (f.kids i)
    some { f.put i (.settled l.result) with
      cache := l.cache
      exchanges := f.exchanges ++ l.exchanges }
  | .settled r => some { f.put i (.done r) with turn := none }
  | .done _ => none

/-- A step of a lookup, with what it finds. -/
structure Move (n : Nat) where
  now : Nat
  net : Network
  lookup : Fin n

/-- Takes steps in an order, if it is one in which they can be taken. -/
def run (f : Flight n) (moves : List (Move n)) : Option (Flight n) :=
  moves.foldlM (fun f m => f.step m.now m.net m.lookup) f

/-- Gives a lookup up: it is as if it had not begun, and its turn, if it has it, is passed on. -/
def abandon (f : Flight n) (i : Fin n) : Flight n :=
  { f.put i .arrived with turn := f.turn.filter (· ≠ i) }

/-- What happens to the lookups. -/
inductive Event (n : Nat)
  | step (move : Move n)
  | abandon (lookup : Fin n)

/-- The lookup that an event happens to. -/
def Event.lookup : Event n → Fin n
  | .step m => m.lookup
  | .abandon i => i

/-- The lookups after an event, if it can happen. A lookup that is done is not given up. -/
def occur (f : Flight n) : Event n → Option (Flight n)
  | .step m => f.step m.now m.net m.lookup
  | .abandon i =>
    match f.stages i with
    | .done _ => none
    | _ => some (f.abandon i)

/-- The lookups after some events, if these can happen in their order. -/
def follow (f : Flight n) (events : List (Event n)) : Option (Flight n) := events.foldlM occur f

end Flight

end TokenGate.Key
