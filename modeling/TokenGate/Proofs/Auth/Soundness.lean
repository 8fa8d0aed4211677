import TokenGate.Proofs.Auth.Groups
import TokenGate.Proofs.Registry.History
import TokenGate.Proofs.Verify.Expiry

/-! # Authentication is sound

A token that a loaded registry accepts, after whatever history, has a payload that says everything
the identity says, in the name of a configured issuer, for an audience of it and before its expiry.
Unless the configuration leaves signatures unchecked, the token is signed with a key that was served
at the address of the issuer's keys (`authenticated_sound`). -/

/-! ## Grounds of an identity -/

namespace TokenGate.Proofs.Auth.Soundness

open TokenGate.Text TokenGate.Json TokenGate.Http TokenGate.Token TokenGate.Load
open TokenGate.Proofs.Results TokenGate.Proofs.Json.Entries TokenGate.Proofs.Token.Segments
open TokenGate.Proofs.Token.Routing TokenGate.Proofs.Key.Served TokenGate.Proofs.Verify.Verdict
open TokenGate.Proofs.Verify.Agreement TokenGate.Proofs.Verify.Expiry
open TokenGate.Proofs.Registry.History TokenGate.Proofs.Registry.Loaded
open TokenGate.Proofs.Registry.Provenance TokenGate.Proofs.Auth.Identified

/-- The audience of claims has a name in it: as the only one, or in a list. -/
def HasAudience (claims : Json) (name : String) : Prop :=
  claims.get? "aud" = some (.string name) ∨
    ∃ items, claims.get? "aud" = some (.array items) ∧ .string name ∈ items

/-- A token is signed with a key of a set that was served at an address to one of some calls. -/
def Signed (token : String) (calls : List Call) (uri : String) : Prop :=
  ∃ c hd key set, SignedWith token c hd key ∧ Key.select set hd.kid = .ok (some key) ∧
    Served calls uri set

/-- What an identity that came from a call stands on: a provider, with its keys at an address, and
claims in the payload of the token. -/
structure Grounds (leeway : UInt64) (history : List Call) (call : Call) (p : Provider) (uri : String)
    (claims : Json) (i : Identity) : Prop where
  payload : ∃ bytes, HasPayload call.token bytes ∧ Json.ofBytes bytes = .ok claims
  object : ∃ ms, claims = .object ms
  issuer : claims.get? "iss" = some (.string p.issuer)
  audience : ∃ name ∈ p.audiences, HasAudience claims name
  expiry : ∃ exp : Int, claims.get? "exp" = some (.int exp) ∧
    call.clock.wall.toInt - leeway.toNat ≤ exp
  signature : p.trustMode ≠ .insecure → Signed call.token (history ++ [call]) uri
  principal : ∃ q domain j, Identifies claims q domain j ∧ i = j.withToken call.token

/-! ### The parts -/

theorem hasAudience_of_match {p : Provider} {claims : Json} {names : List String} {name : String}
    (hnames : (claims.get? "aud").bind names? = some names)
    (h : p.matchAudience names = some name) : name ∈ p.audiences ∧ HasAudience claims name := by
  unfold Provider.matchAudience at h
  have hmem : name ∈ names := by simpa using List.find?_some h
  refine ⟨List.mem_of_find?_eq_some h, ?_⟩
  obtain ⟨v, hv, hnames⟩ := Option.bind_eq_some_iff.mp hnames
  rcases mem_of_names? hnames hmem with rfl | ⟨items, rfl, hitems⟩
  · exact Or.inl hv
  · exact Or.inr ⟨items, hv, hitems⟩

section Call

variable {client : Client} {o : Provider.Options} {c : ProviderConfig} {mode : TrustMode}
variable {uri audience : String} {cached : Option Key.CachedSet} {history : List Call} {call : Call}
variable {claims : Json}

theorem signed_of_keyVerifier (hserved : AllServed history uri cached) (hm : mode ≠ .insecure)
    (h : ((keyVerifier client o c mode uri cached).verify call.clock call.net call.token
      audience).1.verdict = .ok claims) : Signed call.token (history ++ [call]) uri := by
  obtain ⟨parts, hd, key, -, -, hsigned, hkey, -⟩ :=
    signed_of_verdict (v := keyVerifier client o c mode uri cached) hm h
  obtain ⟨s, hs, hselect⟩ := lookup_eq_ok hkey
  obtain ⟨cached', hc, hserved'⟩ := allServed_lookup
    (c := (keyVerifier client o c mode uri cached).keys) hserved call hd.kid
  rw [hc] at hs
  exact ⟨parts, hd, key, s.set, hsigned, hselect, hserved' s hs⟩

/-- **What an identity stands on**, if the provider that was asked is one with served keys. -/
theorem grounds_of_verdict {p : Peek} {i : Identity} (hp : Peek.ofToken call.token = .ok p)
    (hissuer : c.issuer = p.issuer) (hserved : AllServed history uri cached)
    (haudience : (built client o c mode uri cached).matchAudience p.audience = some audience)
    (h : ((keyVerifier client o c mode uri cached).verify call.clock call.net call.token
      audience).1.verdict = .ok claims) (hi : Principal.identify claims = .ok i) :
    Grounds o.leeway history call (built client o c mode uri cached) uri claims
      (i.withToken call.token) := by
  obtain ⟨bytes, hbytes, hvalue⟩ := value_of_verdict h
  -- The payload is an object, so both readings of it and the value have the same members.
  obtain ⟨nodes, stop, hroot⟩ := root_of_verdict hp h hbytes
  have hagrees := agrees_of_object hp hbytes hvalue hroot
  obtain ⟨ms, rfl⟩ := hagrees.object
  obtain ⟨q, domain, hq⟩ :=
    identify_eq_ok (increasing_of_value (ofBytes_eq_ok.mp hvalue).1) hi
  exact {
    payload := ⟨bytes, hasPayload_of_payloadBytes? hbytes, hvalue⟩
    object := ⟨ms, rfl⟩
    issuer := hagrees.issuer.trans (congrArg (some ∘ Json.string) hissuer.symm)
    audience := ⟨audience, hasAudience_of_match hagrees.audience haudience⟩
    expiry := ⟨q.exp.toInt, hq.exp, expiry_of_verdict hp h hq.exp⟩
    signature := fun hm => signed_of_keyVerifier hserved hm h
    principal := ⟨q, domain, i, hq, rfl⟩ }

end Call

section Run

variable {client : Client} {net : Network} {a : AuthConfig} {r : Registry} {history : List Call}
variable {call : Call} {i : Identity}

/-- **What a token that a loaded registry accepts went through**: it was routed to the provider of a
configuration, whose verifier accepted it with keys that were served. -/
theorem verdict_of_run (hload : (loadProviders client net a).result = .ok r)
    (h : (call.run (after r history)).result = .ok i) :
    ∃ peek, Peek.ofToken call.token = .ok peek ∧ ∃ c ∈ (plan a).1, c.issuer = peek.issuer ∧
      ∃ mode uri cached audience claims j, c.trustMode = .ok mode ∧
        KeysAt client net c mode uri ∧ AllServed history uri cached ∧
        (after r history).get? c.issuer = some (built client (options a) c mode uri cached) ∧
        (built client (options a) c mode uri cached).matchAudience peek.audience = some audience ∧
        ((keyVerifier client (options a) c mode uri cached).verify call.clock call.net call.token
          audience).1.verdict = .ok claims ∧
        Principal.identify claims = .ok j ∧ i = j.withToken call.token := by
  obtain ⟨peek, p, audience, claims, j, hpeek, hp, haudience, hverdict, hj, hi⟩ := run_eq_ok h
  obtain ⟨c, hc, hissuer, mode, uri, cached, hmode, huri, rfl, hserved⟩ :=
    originates_after hload history _ _ hp
  rw [verify_built] at hverdict
  rw [← hissuer] at hp
  exact ⟨peek, hpeek, c, hc, hissuer, mode, uri, cached, audience, claims, j, hmode, huri, hserved,
    hp, haudience, hverdict, hj, hi⟩

/-- **What an identity of a loaded registry stands on**, with the provider spelled out. -/
theorem grounds_of_run (hload : (loadProviders client net a).result = .ok r)
    (h : (call.run (after r history)).result = .ok i) :
    ∃ c ∈ (plan a).1, ∃ mode uri cached claims, c.trustMode = .ok mode ∧
      KeysAt client net c mode uri ∧
      (after r history).get? c.issuer = some (built client (options a) c mode uri cached) ∧
      Grounds a.leeway history call (built client (options a) c mode uri cached) uri claims i := by
  obtain ⟨peek, hpeek, c, hc, hissuer, mode, uri, cached, audience, claims, j, hmode, huri, hserved,
    hp, haudience, hverdict, hj, rfl⟩ := verdict_of_run hload h
  exact ⟨c, hc, mode, uri, cached, claims, hmode, huri, hp,
    grounds_of_verdict hpeek hissuer hserved haudience hverdict hj⟩

end Run

/-! ### Two issuers -/

/-- A document that names an issuer and holds its keys, too. -/
def document : String :=
  "\x7b\"issuer\":\"http://a\",\"jwks_uri\":\"http://a/k\",\"keys\":[\x7b\"kty\":\"EC\",\"crv\":\"P-256\","
    ++ "\"x\":\"jlM7b6C_e0YluzBmfAH7YH75-LioD-9bMAYocDGHsqM\","
    ++ "\"y\":\"c-sdveAzGDZtBp-DpvWQAFPHNjPLBBshxV4ahsH0ALQ\"\x7d]\x7d"

/-- The network on which every address answers with this document. -/
def documentNetwork : Network := ⟨fun _ _ => .answered 200 none (Utf8.encode document)⟩

/-- The configuration of an issuer whose signatures are checked and one whose signatures are not. -/
def checkedAndUnchecked : AuthConfig :=
  { AuthConfig.default with
    providers := [⟨"http://a", ["x"], false, false, none⟩, ⟨"http://b", ["x"], true, true, none⟩] }

/-- A call with a token of the first issuer, signed with its key under ES256. -/
def signedCall : Call :=
  ⟨10, ⟨1700000000, 0⟩, documentNetwork, "eyJhbGciOiJFUzI1NiJ9."
    ++ "eyJpc3MiOiJodHRwOi8vYSIsImF1ZCI6IngiLCJlbWFpbCI6InVAZCIsImdyb3VwcyI6WyJnIl0sImV4cCI6"
    ++ "MTcwMDAwMDEwMH0.Ju_OvQ7p40pmkYfhizqRIrL3M5RbZJzJ-fkh6fna2BKWNMVYagvuNtlAb0zAe2e4GTP1"
    ++ "DvAQImHAOIOgzeEBTw"⟩

theorem claimed?_signedCall : claimed? signedCall.token = some "http://a" := by decide +kernel

/-- A call with a token of the second issuer, which has no header and no signature. -/
def unsignedCall : Call :=
  ⟨10, ⟨1700000000, 0⟩, documentNetwork,
    ".eyJpc3MiOiJodHRwOi8vYiIsImF1ZCI6IngiLCJlbWFpbCI6InVAZCIsImdyb3VwcyI6WyJnIl0sImV4cCI6"
      ++ "MTcwMDAwMDEwMH0"⟩

theorem run_signedCall_unsignedCall : ∃ r i i',
    (loadProviders ⟨0⟩ documentNetwork checkedAndUnchecked).result = .ok r ∧
    (signedCall.run r).result = .ok i ∧ (unsignedCall.run r).result = .ok i' ∧
    i.kind = i'.kind ∧ i.auth = i'.auth ∧ i.user = i'.user := by
  have hrun : ((loadProviders ⟨0⟩ documentNetwork checkedAndUnchecked).result.toOption.bind fun r =>
      (signedCall.run r).result.toOption.bind fun i => (unsignedCall.run r).result.toOption.map
        fun i' => decide (i.kind = i'.kind ∧ i.auth = i'.auth ∧ i.user = i'.user)) = some true := by
    decide +kernel
  obtain ⟨r, hr, hrun⟩ := Option.bind_eq_some_iff.mp hrun
  obtain ⟨i, hi, hrun⟩ := Option.bind_eq_some_iff.mp hrun
  obtain ⟨i', hi', halike⟩ := Option.map_eq_some_iff.mp hrun
  rw [toOption_eq_some] at hr hi hi'
  exact ⟨r, i, i', hr, hi, hi', of_decide_eq_true halike⟩

/-! ### Soundness -/

/-- **Soundness.** Whatever is configured and however the network answers, an identity that comes
from a loaded registry after some history stands on the claims of its token and on the provider that
is registered under the issuer of the claims, which is that of a configuration with this issuer. -/
theorem authenticated_sound (client : Client) (net : Network) (a : AuthConfig) (r : Registry)
    (hload : (loadProviders client net a).result = .ok r) (history : List Call) (call : Call)
    (i : Identity) (h : (call.run (after r history)).result = .ok i) :
    ∃ c ∈ (plan a).1, ∃ p v claims, (after r history).get? p.issuer = some p ∧
      p.issuer = c.issuer ∧ p.audiences = c.audiences ∧ c.trustMode = .ok p.trustMode ∧
      p.verifier = .keys v ∧ KeysAt client net c p.trustMode v.keys.uri ∧
      Grounds a.leeway history call p v.keys.uri claims i := by
  obtain ⟨c, hc, mode, uri, cached, claims, hmode, huri, hp, hgrounds⟩ := grounds_of_run hload h
  exact ⟨c, hc, built client (options a) c mode uri cached, _, claims, hp, rfl, rfl, hmode, rfl,
    huri, hgrounds⟩

theorem authenticated_sound_signed : ∃ r i,
    (loadProviders ⟨0⟩ documentNetwork checkedAndUnchecked).result = .ok r ∧
    (signedCall.run (after r [])).result = .ok i ∧
    ∃ c ∈ (plan checkedAndUnchecked).1, ∃ p v claims, (after r []).get? p.issuer = some p ∧
      p.issuer = c.issuer ∧ p.audiences = c.audiences ∧ c.trustMode = .ok p.trustMode ∧
      p.verifier = .keys v ∧ KeysAt ⟨0⟩ documentNetwork c p.trustMode v.keys.uri ∧
      Grounds checkedAndUnchecked.leeway [] signedCall p v.keys.uri claims i := by
  obtain ⟨r, i, -, hr, hi, -⟩ := run_signedCall_unsignedCall
  exact ⟨r, i, hr, hi, authenticated_sound _ _ _ _ hr _ _ _ hi⟩

end TokenGate.Proofs.Auth.Soundness

/-! ## No identity before its time

Whatever is configured, and whether signatures are checked or not, a token whose payload says from
when on it is valid makes an identity only if it says so with a number, and from then on
(`not_before_enforced`). -/

namespace TokenGate.Proofs.Auth.NotBefore

open TokenGate.Http TokenGate.Load TokenGate.Proofs.Results TokenGate.Proofs.Token.Segments
open TokenGate.Proofs.Verify.Agreement TokenGate.Proofs.Verify.NotBefore
open TokenGate.Proofs.Registry.History TokenGate.Proofs.Auth.Soundness

/-- A number that rounds to an integer less than `2 ^ 64 - 1` is less than `2 ^ 64`. -/
theorem lt_of_round_le {q : ℚ} {t : ℤ} (h : round q ≤ t) (ht : t < 2 ^ 64 - 1) : q < 2 ^ 64 := by
  have hround : (round q : ℚ) ≤ 2 ^ 64 - 1 := by exact_mod_cast (h.trans_lt ht).le
  have hnear := (abs_le.mp (abs_sub_round q)).2
  linarith

/-- **The start is enforced.** Whatever is configured and however the network answers, if a token
makes an identity with a loaded registry after some history and its payload has a start, then that
is a number which is, rounded to a second, at most the time plus the tolerance. Where the tolerance
is not greater than the time, it is also less than `2 ^ 64`. -/
theorem not_before_enforced (client : Client) (net : Network) (a : AuthConfig) (r : Registry)
    (hload : (loadProviders client net a).result = .ok r) (history : List Call) (call : Call)
    (i : Identity) (h : (call.run (after r history)).result = .ok i) :
    ∃ claims, (∃ bytes, HasPayload call.token bytes ∧ Json.ofBytes bytes = .ok claims) ∧
      ∀ w, claims.get? "nbf" = some w → ∃ x, w = .number x ∧
        round (rational x) ≤ call.clock.wall.toInt + a.leeway.toNat ∧
        (a.leeway.toNat ≤ call.clock.wall.toInt → rational x < 2 ^ 64) := by
  obtain ⟨peek, hpeek, c, -, -, mode, uri, cached, audience, claims, j, -, -, -, -, -, hverdict, -⟩ :=
    verdict_of_run hload h
  obtain ⟨bytes, hbytes, hvalue⟩ := value_of_verdict hverdict
  refine ⟨claims, ⟨bytes, hasPayload_of_payloadBytes? hbytes, hvalue⟩, fun w hw => ?_⟩
  obtain ⟨x, hx, hle⟩ := notBefore_of_verdict hpeek hverdict hw
  refine ⟨x, hx, hle, fun hleeway => lt_of_round_le hle ?_⟩
  have hnow : call.clock.wall.toInt ≤ 2 ^ 63 - 1 := Int64.toInt_le _
  calc call.clock.wall.toInt + a.leeway.toNat ≤ (2 ^ 63 - 1) + (2 ^ 63 - 1) := by omega
    _ < 2 ^ 64 - 1 := by norm_num

/-- A call with a token that is valid from fifty seconds later on. -/
def earlyCall : Call :=
  ⟨10, ⟨1700000000, 0⟩, documentNetwork,
    ".eyJpc3MiOiJodHRwOi8vYiIsImF1ZCI6IngiLCJlbWFpbCI6InVAZCIsImdyb3VwcyI6WyJnIl0sImV4cCI6"
      ++ "MTcwMDAwMDEwMCwibmJmIjoxNzAwMDAwMDUwfQ"⟩

/-- A minute of tolerance lets it pass. -/
theorem not_before_enforced_early : ∃ r i,
    (loadProviders ⟨0⟩ documentNetwork checkedAndUnchecked).result = .ok r ∧
    (earlyCall.run (after r [signedCall])).result = .ok i ∧
    ∃ claims, (∃ bytes, HasPayload earlyCall.token bytes ∧ Json.ofBytes bytes = .ok claims) ∧
      ∀ w, claims.get? "nbf" = some w → ∃ x, w = .number x ∧
        round (rational x) ≤ earlyCall.clock.wall.toInt + checkedAndUnchecked.leeway.toNat ∧
        (checkedAndUnchecked.leeway.toNat ≤ earlyCall.clock.wall.toInt → rational x < 2 ^ 64) := by
  have hrun : ((loadProviders ⟨0⟩ documentNetwork checkedAndUnchecked).result.toOption.bind fun r =>
      (earlyCall.run (after r [signedCall])).result.toOption).isSome := by decide +kernel
  obtain ⟨i, hrun⟩ := Option.isSome_iff_exists.mp hrun
  obtain ⟨r, hr, hi⟩ := Option.bind_eq_some_iff.mp hrun
  rw [toOption_eq_some] at hr hi
  exact ⟨r, i, hr, hi, not_before_enforced _ _ _ _ hr _ _ _ hi⟩

end TokenGate.Proofs.Auth.NotBefore
