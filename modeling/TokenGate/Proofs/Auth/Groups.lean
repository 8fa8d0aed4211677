import TokenGate.Auth.Principal
import TokenGate.Proofs.Json.Members

/-! # Groups and the domains of addresses

A principal's groups are qualified by the domain of its email address. The domain holds no `@`, so
the last `@` of a qualified group splits it into the name that the provider gave and the domain,
whatever that name imitates (`qualified_injective`). So a group that two principals share is of one
domain, and of one name there (`groups_keep_to_domains`). -/

/-! ## Claims that identify a principal

An identity says what its claims say and nothing else: the email address, the groups, each with the
domain of the address behind it, and the expiry (`identify_eq_ok`). -/

namespace TokenGate.Proofs.Auth.Identified

open TokenGate.Json TokenGate.Proofs.Results TokenGate.Proofs.Json.Members

/-! ### Groups and addresses -/

theorem splitAt?_eq_some {cs before after : List Char}
    (h : Groups.splitAt? cs = some (before, after)) :
    cs = before ++ '@' :: after ∧ '@' ∉ before := by
  induction cs generalizing before with
  | nil => cases h
  | cons c cs ih =>
    rw [Groups.splitAt?] at h
    split_ifs at h with hc
    · cases h
      exact ⟨by rw [hc, List.nil_append], List.not_mem_nil⟩
    · obtain ⟨⟨before', after'⟩, h', hp⟩ := Option.map_eq_some_iff.mp h
      cases hp
      obtain ⟨hcs, hbefore⟩ := ih h'
      refine ⟨by rw [hcs, List.cons_append], ?_⟩
      rw [List.mem_cons, not_or]
      exact ⟨Ne.symm hc, hbefore⟩

/-- An address has one `@`, and a domain behind it. -/
def HasDomain (email domain : String) : Prop :=
  ∃ name, email.toList = name ++ '@' :: domain.toList ∧ '@' ∉ name ∧ '@' ∉ domain.toList ∧
    domain ≠ ""

theorem hasDomain_of_emailDomain {email domain : String}
    (h : Groups.emailDomain email = .ok domain) : HasDomain email domain := by
  unfold Groups.emailDomain at h
  split at h
  · rename_i name rest hsplit
    split_ifs at h with hrest
    cases h
    rw [not_or] at hrest
    obtain ⟨hemail, hname⟩ := splitAt?_eq_some hsplit
    refine ⟨name, ?_, hname, ?_, ?_⟩
    · rw [String.toList_ofList, hemail]
    · rw [String.toList_ofList]
      exact hrest.2
    · intro hempty
      exact hrest.1 (String.ofList_eq_empty_iff.mp hempty)
  · cases h

/-! ### Shapes of the members -/

theorem eq_string_of_shape {v : Json} {s : String} (h : Shape.string v = .ok s) :
    v = .string s := by
  unfold Shape.string at h
  split at h <;> cases h
  rfl

theorem eq_strings_of_shape {v : Json} {ss : List String}
    (h : Shape.list Shape.string v = .ok ss) : v = .strings ss := by
  unfold Shape.list at h
  split at h
  · rename_i items
    rw [Json.strings]
    congr 1
    induction items generalizing ss with
    | nil =>
      cases h
      rfl
    | cons v items ih =>
      rw [List.mapM_cons] at h
      obtain ⟨s, hs, h⟩ := bind_eq_ok.mp h
      obtain ⟨ss', hss, h⟩ := bind_eq_ok.mp h
      cases h
      rw [List.map_cons, eq_string_of_shape hs, ih hss]
  · cases h

theorem eq_int_of_shape {v : Json} {z : Int64} (h : Shape.int64 v = .ok z) :
    v = .int z.toInt := by
  unfold Shape.int64 at h
  obtain ⟨n, hn, rfl⟩ := map_eq_ok.mp h
  unfold Shape.integer at hn
  split at hn
  · split_ifs at hn with hfits
    cases hn
    simp only [fitsInt64, Bool.and_eq_true, decide_eq_true_eq] at hfits
    rw [Int64.toInt_ofInt_of_le hfits.1 hfits.2]
    rfl
  · cases hn

/-! ### Principals -/

theorem email_reads : Reads Principal.fields "email" Shape.string Principal.email where
  known := by simp [Principal.fields]
  set := by simp [Principal.fields]
  keep := by simp [Principal.fields]

theorem groups_reads :
    Reads Principal.fields "groups" (Shape.list Shape.string) Principal.groups where
  known := by simp [Principal.fields]
  set := by simp [Principal.fields]
  keep := by simp [Principal.fields]

theorem exp_reads : Reads Principal.fields "exp" Shape.int64 Principal.exp where
  known := by simp [Principal.fields]
  set := by simp [Principal.fields]
  keep := by simp [Principal.fields]

/-- The groups of the platform for groups of a provider: each with a domain behind it. -/
def qualify (domain : String) (groups : List String) : List String :=
  groups.map fun group => group ++ "@" ++ domain

/-- Claims say of a principal what an identity says. -/
structure Identifies (claims : Json) (p : Principal) (domain : String) (i : Identity) : Prop where
  email : claims.get? "email" = some (.string p.email)
  address : HasDomain p.email domain
  groups : claims.get? "groups" = some (.strings p.groups)
  groups_ne : p.groups ≠ []
  exp : claims.get? "exp" = some (.int p.exp.toInt)
  identity : ∃ expiration, Time.Timestamp.ofUnix? p.exp.toInt 0 = some expiration ∧
    i = Identity.oidcUser ⟨p.email, qualify domain p.groups, p.exp⟩ expiration

theorem identity_eq_ok {p : Principal} {i : Identity} (h : p.identity = .ok i) :
    ∃ domain, HasDomain p.email domain ∧ p.groups ≠ [] ∧
      ∃ expiration, Time.Timestamp.ofUnix? p.exp.toInt 0 = some expiration ∧
        i = Identity.oidcUser ⟨p.email, qualify domain p.groups, p.exp⟩ expiration := by
  unfold Principal.identity at h
  split at h
  · cases h
  · rename_i expiration hexpiration
    obtain ⟨groups, hgroups, h⟩ := bind_eq_ok.mp h
    cases h
    obtain ⟨domain, hdomain, hgroups⟩ := bind_eq_ok.mp hgroups
    split_ifs at hgroups with hne
    cases hgroups
    exact ⟨domain, hasDomain_of_emailDomain hdomain, hne, expiration, hexpiration, rfl⟩

/-- **What claims that make an identity look like.** -/
theorem identify_eq_ok {ms : List (String × Json)} {i : Identity} (hms : Increasing ms)
    (h : Principal.identify (.object ms) = .ok i) :
    ∃ p domain, Identifies (.object ms) p domain i := by
  unfold Principal.identify at h
  cases hp : Principal.shape (.object ms) with
  | error f =>
    rw [hp] at h
    cases h
  | ok p =>
    rw [hp] at h
    obtain ⟨domain, hdomain, hne, hidentity⟩ := identity_eq_ok h
    unfold Principal.shape at hp
    refine ⟨p, domain, ?_, hdomain, ?_, hne, ?_, hidentity⟩
    · obtain ⟨v, hv⟩ := shape_required hp (f := Principal.fields[0]) (List.getElem_mem _) rfl
      have := eq_string_of_shape ((shape_reads email_reads hms hp).1 v hv)
      exact hv.trans (congrArg some this)
    · -- Groups may be missing, but then they are empty and no identity is made.
      obtain ⟨hread, hdefault⟩ := shape_reads groups_reads hms hp
      cases hl : lookup? "groups" ms with
      | none => exact absurd (hdefault hl) hne
      | some v => exact hl.trans (congrArg some (eq_strings_of_shape (hread v hl)))
    · obtain ⟨v, hv⟩ := shape_required hp (f := Principal.fields[2]) (List.getElem_mem _) rfl
      have := eq_int_of_shape ((shape_reads exp_reads hms hp).1 v hv)
      exact hv.trans (congrArg some this)

end TokenGate.Proofs.Auth.Identified

/-! ## Qualified groups -/

namespace TokenGate.Proofs.Auth.Groups

open TokenGate.Proofs.Results TokenGate.Proofs.Auth.Identified

/-! ### Addresses -/

theorem splitAt?_append {name rest : List Char} (h : '@' ∉ name) :
    Groups.splitAt? (name ++ '@' :: rest) = some (name, rest) := by
  induction name with
  | nil => exact if_pos rfl
  | cons c name ih =>
    rw [List.mem_cons, not_or] at h
    rw [List.cons_append, Groups.splitAt?, if_neg (Ne.symm h.1), ih h.2]
    rfl

theorem emailDomain_of_hasDomain {email domain : String} (h : HasDomain email domain) :
    Groups.emailDomain email = .ok domain := by
  obtain ⟨name, hemail, hname, hdomain, hne⟩ := h
  have hcond : ¬ (domain.toList = [] ∨ '@' ∈ domain.toList) := by
    rw [not_or, String.toList_eq_nil_iff]
    exact ⟨hne, hdomain⟩
  rw [Groups.emailDomain, hemail, splitAt?_append hname]
  dsimp only
  rw [if_neg hcond, String.ofList_toList]

theorem emailDomain_eq_ok {email domain : String} :
    Groups.emailDomain email = .ok domain ↔ HasDomain email domain :=
  ⟨hasDomain_of_emailDomain, emailDomain_of_hasDomain⟩

theorem hasDomain_unique {email domain domain' : String} (h : HasDomain email domain)
    (h' : HasDomain email domain') : domain = domain' :=
  Except.ok.inj ((emailDomain_of_hasDomain h).symm.trans (emailDomain_of_hasDomain h'))

theorem emailDomain_eq_error {email : String} {r : Rejection} :
    Groups.emailDomain email = .error r ↔
      r = .invalidEmailFormat ∧ ¬ ∃ domain, HasDomain email domain := by
  simp only [← emailDomain_eq_ok]
  have hfault : ∀ r, Groups.emailDomain email = .error r → r = .invalidEmailFormat := by
    intro r h
    unfold Groups.emailDomain at h
    split at h
    · split_ifs at h
      cases h
      rfl
    · cases h
      rfl
  cases h : Groups.emailDomain email with
  | ok domain => simp
  | error r' =>
    obtain rfl := hfault r' h
    simp [eq_comm]

/-! ### Groups -/

theorem resolve_eq_ok {email : String} {native groups : List String} :
    Groups.resolve email native = .ok groups ↔
      native ≠ [] ∧ ∃ domain, HasDomain email domain ∧ groups = qualify domain native := by
  unfold Groups.resolve
  simp only [bind_eq_ok, emailDomain_eq_ok]
  constructor
  · rintro ⟨domain, hdomain, h⟩
    split_ifs at h with hnative
    cases h
    exact ⟨hnative, domain, hdomain, rfl⟩
  · rintro ⟨hnative, domain, hdomain, rfl⟩
    exact ⟨domain, hdomain, if_neg hnative⟩

theorem resolve_of_hasDomain {email domain : String} (h : HasDomain email domain)
    (native : List String) : Groups.resolve email native =
      if native = [] then .error .noGroupsResolved else .ok (qualify domain native) := by
  rw [Groups.resolve, emailDomain_of_hasDomain h]
  rfl

theorem resolve_of_not_hasDomain {email : String} (h : ¬ ∃ domain, HasDomain email domain)
    (native : List String) : Groups.resolve email native = .error .invalidEmailFormat := by
  rw [Groups.resolve, emailDomain_eq_error.mpr ⟨rfl, h⟩]
  rfl

/-- **Why groups are not resolved**: the address first, and then that there is no group. -/
theorem resolve_eq_error {email : String} {native : List String} {r : Rejection} :
    Groups.resolve email native = .error r ↔
      (r = .invalidEmailFormat ∧ ¬ ∃ domain, HasDomain email domain) ∨
        (r = .noGroupsResolved ∧ native = [] ∧ ∃ domain, HasDomain email domain) := by
  by_cases hdomain : ∃ domain, HasDomain email domain
  · obtain ⟨domain, h⟩ := id hdomain
    rw [resolve_of_hasDomain h]
    split_ifs with hnative
    · simp [hdomain, hnative, eq_comm]
    · simp [hdomain, hnative]
  · rw [resolve_of_not_hasDomain hdomain]
    simp [hdomain, eq_comm]

/-- **The last `@` of a qualified group splits it.** -/
theorem qualified_injective {domain domain' group group' : String} (h : '@' ∉ domain.toList)
    (h' : '@' ∉ domain'.toList) (heq : group ++ "@" ++ domain = group' ++ "@" ++ domain') :
    group = group' ∧ domain = domain' := by
  -- From behind, the last `@` is the first one.
  have hreverse : ∀ g d : String, (g ++ "@" ++ d).toList.reverse =
      d.toList.reverse ++ '@' :: g.toList.reverse := by
    intro g d
    simp
  have hsplit := congrArg (fun s : String => Groups.splitAt? s.toList.reverse) heq
  rw [hreverse, hreverse, splitAt?_append (by rwa [List.mem_reverse]),
    splitAt?_append (by rwa [List.mem_reverse])] at hsplit
  obtain ⟨hdomain, hgroup⟩ := Prod.mk.inj (Option.some.inj hsplit)
  exact ⟨String.toList_inj.mp (List.reverse_inj.mp hgroup),
    String.toList_inj.mp (List.reverse_inj.mp hdomain)⟩

theorem getElem?_qualify (domain : String) (native : List String) (i : ℕ) :
    (qualify domain native)[i]? = native[i]?.map fun group => group ++ "@" ++ domain :=
  List.getElem?_map

theorem getElem?_of_qualify {domain group : String} {native : List String} {i : ℕ}
    (hdomain : '@' ∉ domain.toList) (h : (qualify domain native)[i]? = some (group ++ "@" ++ domain)) :
    native[i]? = some group := by
  rw [getElem?_qualify] at h
  obtain ⟨group', hgroup', heq⟩ := Option.map_eq_some_iff.mp h
  rw [hgroup', (qualified_injective hdomain hdomain heq).1]

/-- **Groups do not cross the domains of addresses.** If two principals have a group in common,
their addresses have the same domain, and the name that the provider gave to this group is the same
on both sides, wherever it stands. The groups of a principal are those of the provider in their
order, each with the domain behind it, and there is at least one. They can be resolved exactly if
the provider gave one and the address is well formed; an address that is not is reported first. -/
theorem groups_keep_to_domains :
    (∀ email email' native native' groups groups',
        Groups.resolve email native = .ok groups → Groups.resolve email' native' = .ok groups' →
        ∀ shared ∈ groups, shared ∈ groups' → ∃ domain group,
          HasDomain email domain ∧ HasDomain email' domain ∧
          (∀ i : ℕ, groups[i]? = some shared → native[i]? = some group) ∧
          ∀ i : ℕ, groups'[i]? = some shared → native'[i]? = some group) ∧
      (∀ email native groups, Groups.resolve email native = .ok groups →
        groups ≠ [] ∧ groups.length = native.length ∧ ∃ domain, HasDomain email domain ∧
          ∀ i : ℕ, groups[i]? = native[i]?.map fun group => group ++ "@" ++ domain) ∧
      (∀ email native, (∃ groups, Groups.resolve email native = .ok groups) ↔
        native ≠ [] ∧ ∃ domain, HasDomain email domain) ∧
      (∀ email native, Groups.resolve email native = .error .invalidEmailFormat ↔
        ¬ ∃ domain, HasDomain email domain) ∧
      ∀ email native, Groups.resolve email native = .error .noGroupsResolved ↔
        native = [] ∧ ∃ domain, HasDomain email domain := by
  refine ⟨?_, ?_, ?_, ?_, ?_⟩
  · intro email email' native native' groups groups' h h' shared hshared hshared'
    obtain ⟨-, domain, hdomain, rfl⟩ := resolve_eq_ok.mp h
    obtain ⟨-, domain', hdomain', rfl⟩ := resolve_eq_ok.mp h'
    obtain ⟨group, -, rfl⟩ := List.mem_map.mp hshared
    obtain ⟨group', -, heq⟩ := List.mem_map.mp hshared'
    obtain ⟨_, -, -, hat, -⟩ := id hdomain
    obtain ⟨_, -, -, hat', -⟩ := id hdomain'
    obtain ⟨-, rfl⟩ := qualified_injective hat' hat heq
    exact ⟨domain', group, hdomain, hdomain', fun i => getElem?_of_qualify hat,
      fun i => getElem?_of_qualify hat⟩
  · intro email native groups h
    obtain ⟨hnative, domain, hdomain, rfl⟩ := resolve_eq_ok.mp h
    exact ⟨mt List.map_eq_nil_iff.mp hnative, List.length_map _, domain, hdomain,
      getElem?_qualify domain native⟩
  · intro email native
    constructor
    · rintro ⟨groups, h⟩
      obtain ⟨hnative, domain, hdomain, -⟩ := resolve_eq_ok.mp h
      exact ⟨hnative, domain, hdomain⟩
    · rintro ⟨hnative, domain, hdomain⟩
      exact ⟨_, resolve_eq_ok.mpr ⟨hnative, domain, hdomain, rfl⟩⟩
  · intro email native
    rw [resolve_eq_error]
    simp
  · intro email native
    rw [resolve_eq_error]
    simp

/-- Two principals of one domain share a group, and not the one that imitates a group of another. -/
theorem groups_keep_to_domains_imitated :
    Groups.resolve "eve@corp.example" ["admins@example.com", "devs"] =
        .ok ["admins@example.com@corp.example", "devs@corp.example"] ∧
      Groups.resolve "bob@corp.example" ["devs"] = .ok ["devs@corp.example"] ∧
      ∃ domain group, HasDomain "eve@corp.example" domain ∧ HasDomain "bob@corp.example" domain ∧
        (∀ i : ℕ, ["admins@example.com@corp.example", "devs@corp.example"][i]? =
          some "devs@corp.example" → ["admins@example.com", "devs"][i]? = some group) ∧
        ∀ i : ℕ, ["devs@corp.example"][i]? = some "devs@corp.example" →
          ["devs"][i]? = some group := by
  have heve : Groups.resolve "eve@corp.example" ["admins@example.com", "devs"] =
      .ok ["admins@example.com@corp.example", "devs@corp.example"] := by
    decide +kernel
  have hbob : Groups.resolve "bob@corp.example" ["devs"] = .ok ["devs@corp.example"] := by
    decide +kernel
  exact ⟨heve, hbob, groups_keep_to_domains.1 _ _ _ _ _ _ heve hbob "devs@corp.example"
    (by simp) (by simp)⟩

end TokenGate.Proofs.Auth.Groups
