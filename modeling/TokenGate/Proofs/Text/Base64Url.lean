import TokenGate.Text.Octets
import TokenGate.Proofs.Results
import TokenGate.Proofs.Text.Utf8
import Mathlib.Data.List.TakeWhile
import Mathlib.Tactic

/-! # Base64url: octets have one written form

The values of symbols determine the symbols (`symbol_of_value?`), and the values of a group are read
off the octets that it stands for. So a text that can be read is the written form of what is read
(`eq_encode_of_decode`), and the written form of octets is read as these octets
(`decode_encode`). -/

namespace TokenGate.Proofs.Text.Base64Url

open TokenGate.Text.Base64Url TokenGate.Proofs.Results
open TokenGate.Proofs.Text.Utf8 (octet_of_eq toNat_octet)

/-! ### Symbols -/

theorem symbol_of_value? {b : UInt8} {v : Nat} (h : value? b = some v) : v < 64 ∧ symbol v = b := by
  unfold value? at h
  unfold symbol
  dsimp only at h
  split_ifs at h with h1 h2 h3 h4 h5 <;> cases h
  · exact ⟨by omega, by rw [if_pos (by omega)]; exact octet_of_eq (by omega)⟩
  · exact ⟨by omega, by rw [if_neg (by omega), if_pos (by omega)]; exact octet_of_eq (by omega)⟩
  · refine ⟨by omega, ?_⟩
    rw [if_neg (by omega), if_neg (by omega), if_pos (by omega)]
    exact octet_of_eq (by omega)
  · exact ⟨by omega, octet_of_eq h4.symm⟩
  · exact ⟨by omega, octet_of_eq h5.symm⟩

theorem symbol_ne_stop (v : Nat) : symbol v ≠ 0x2E := by
  intro h
  have h := congrArg UInt8.toNat h
  unfold symbol at h
  split_ifs at h <;> simp at h <;> omega

theorem ascii_symbol (v : Nat) : (symbol v).toNat < 0x80 := by
  unfold symbol
  split_ifs <;> simp <;> omega

theorem valueAt_eq_ok {b : UInt8} {i v : Nat} (h : valueAt b i = .ok v) :
    v < 64 ∧ symbol v = b := by
  unfold valueAt at h
  split at h
  · cases h; exact symbol_of_value? (by assumption)
  · cases h

theorem valuesFrom_eq_ok {start : Nat} {group : List UInt8} {vs : List Nat}
    (h : valuesFrom start group = .ok vs) : group = vs.map symbol ∧ ∀ v ∈ vs, v < 64 := by
  induction group generalizing start vs with
  | nil => cases h; exact ⟨rfl, fun v hv => by cases hv⟩
  | cons b rest ih =>
    rw [valuesFrom] at h
    simp only [bind_eq_ok, pure_eq_ok] at h
    obtain ⟨v, hv, ws, hws, rfl⟩ := h
    obtain ⟨ih1, ih2⟩ := ih hws
    obtain ⟨hlt, hsym⟩ := valueAt_eq_ok hv
    refine ⟨by rw [List.map_cons, hsym, ← ih1], fun w hw => ?_⟩
    rcases List.mem_cons.mp hw with rfl | hw
    · exact hlt
    · exact ih2 w hw

/-! ### Groups -/

theorem encode_group {v w x y : Nat} (hv : v < 64) (hw : w < 64) (hx : x < 64) (hy : y < 64)
    (bytes : List UInt8) :
    encode (UInt8.ofNat (v * 4 + w / 16) :: UInt8.ofNat (w % 16 * 16 + x / 4)
      :: UInt8.ofNat (x % 4 * 64 + y) :: bytes) =
      symbol v :: symbol w :: symbol x :: symbol y :: encode bytes := by
  have e1 : (v * 4 + w / 16) / 4 = v := by omega
  have e2 : (v * 4 + w / 16) % 4 * 16 + (w % 16 * 16 + x / 4) / 16 = w := by omega
  have e3 : (w % 16 * 16 + x / 4) % 16 * 4 + (x % 4 * 64 + y) / 64 = x := by omega
  have e4 : (x % 4 * 64 + y) % 64 = y := by omega
  rw [encode, toNat_octet (by omega), toNat_octet (by omega), toNat_octet (by omega), e1, e2, e3,
    e4]

theorem lastValues_eq_ok {start : Nat} {group : List UInt8} {vs : List Nat}
    (h : lastValues start group = .ok vs) : valuesFrom start group = .ok vs := by
  unfold lastValues at h
  obtain ⟨ws, hws, h⟩ := bind_eq_ok.mp h
  split_ifs at h with hlen hpad
  · cases h
    have hall : group.takeWhile (fun b => decide (b ≠ padding)) = group :=
      (List.takeWhile_prefix _).eq_of_length hlen
    rwa [hall] at hws

theorem eq_encode_of_decodeLast {start : Nat} {group bytes : List UInt8} (hlen : group.length ≤ 4)
    (h : decodeLast start group = .ok bytes) : group = encode bytes := by
  unfold decodeLast at h
  obtain ⟨vs, hvs, h⟩ := bind_eq_ok.mp h
  obtain ⟨rfl, hlt⟩ := valuesFrom_eq_ok (lastValues_eq_ok hvs)
  simp only [List.length_map] at hlen
  -- In a group of two or three the bits behind the last octet are zero, or else it is refused.
  match vs with
  | [] => cases h; rfl
  | [v] => cases h
  | [v, w] =>
    simp only [List.mem_cons, List.not_mem_nil, or_false, forall_eq_or_imp, forall_eq] at hlt
    dsimp only at h
    split_ifs at h with hw
    cases h
    have e1 : (v * 4 + w / 16) / 4 = v := by omega
    have e2 : (v * 4 + w / 16) % 4 * 16 = w := by omega
    rw [encode, toNat_octet (by omega), e1, e2]
    rfl
  | [v, w, x] =>
    simp only [List.mem_cons, List.not_mem_nil, or_false, forall_eq_or_imp, forall_eq] at hlt
    dsimp only at h
    split_ifs at h with hx
    cases h
    have e1 : (v * 4 + w / 16) / 4 = v := by omega
    have e2 : (v * 4 + w / 16) % 4 * 16 + (w % 16 * 16 + x / 4) / 16 = w := by omega
    have e3 : (w % 16 * 16 + x / 4) % 16 * 4 = x := by omega
    rw [encode, toNat_octet (by omega), toNat_octet (by omega), e1, e2, e3]
    rfl
  | [v, w, x, y] =>
    simp only [List.mem_cons, List.not_mem_nil, or_false, forall_eq_or_imp, forall_eq] at hlt
    cases h
    rw [encode_group hlt.1 hlt.2.1 hlt.2.2.1 hlt.2.2.2]
    rfl
  | v :: w :: x :: y :: z :: rest => simp at hlen; omega

theorem eq_encode_of_decodeFrom {start : Nat} {text bytes : List UInt8}
    (h : decodeFrom start text = .ok bytes) : text = encode bytes := by
  match text with
  | [] | [_] | [_, _] | [_, _, _] => exact eq_encode_of_decodeLast (by simp) h
  | a :: b :: c :: d :: rest =>
    rw [decodeFrom] at h
    split_ifs at h with hrest
    · rw [hrest]
      exact eq_encode_of_decodeLast (by simp) h
    · simp only [bind_eq_ok, pure_eq_ok] at h
      obtain ⟨v, ha, w, hb, x, hc, y, hd, more, hmore, rfl⟩ := h
      obtain ⟨hv, rfl⟩ := valueAt_eq_ok ha
      obtain ⟨hw, rfl⟩ := valueAt_eq_ok hb
      obtain ⟨hx, rfl⟩ := valueAt_eq_ok hc
      obtain ⟨hy, rfl⟩ := valueAt_eq_ok hd
      rw [encode_group hv hw hx hy, ← eq_encode_of_decodeFrom hmore]
termination_by text.length

/-- **A text that can be read is the written form of what is read.** -/
theorem eq_encode_of_decode {text bytes : List UInt8} (h : decode text = .ok bytes) :
    text = encode bytes := by
  unfold decode at h
  split at h
  · cases h
  · exact eq_encode_of_decodeFrom h

theorem stop_not_mem_encode (bytes : List UInt8) : 0x2E ∉ encode bytes := by
  fun_induction encode bytes with
  | case1 => simp
  | case2 => simp [(symbol_ne_stop _).symm]
  | case3 => simp [(symbol_ne_stop _).symm]
  | case4 a b c rest ih => simp [(symbol_ne_stop _).symm, ih]

theorem ascii_encode (bytes : List UInt8) : ∀ b ∈ encode bytes, b.toNat < 0x80 := by
  fun_induction encode bytes with
  | case1 => simp
  | case2 | case3 => simp [ascii_symbol]
  | case4 a b c rest ih => simpa [ascii_symbol] using ih

/-! ### Reading what was written -/

theorem value?_symbol {v : Nat} (h : v < 64) : value? (symbol v) = some v := by
  revert v
  decide

theorem valueAt_symbol {v : Nat} (h : v < 64) (i : Nat) : valueAt (symbol v) i = .ok v := by
  rw [valueAt, value?_symbol h]

theorem symbol_ne_padding {v : Nat} (h : v < 64) : symbol v ≠ padding := by
  intro hpad
  have hvalue := value?_symbol h
  rw [hpad] at hvalue
  cases hvalue

theorem valuesFrom_map_symbol (vs : List Nat) (h : ∀ v ∈ vs, v < 64) (start : Nat) :
    valuesFrom start (vs.map symbol) = .ok vs := by
  induction vs generalizing start with
  | nil => rfl
  | cons v vs ih =>
    have hv := valueAt_symbol (h v List.mem_cons_self) start
    have hvs := ih (fun w hw => h w (List.mem_cons_of_mem _ hw)) (start + 1)
    rw [List.map_cons, valuesFrom, hv, hvs]
    rfl

theorem lastValues_map_symbol (vs : List Nat) (h : ∀ v ∈ vs, v < 64) (start : Nat) :
    lastValues start (vs.map symbol) = .ok vs := by
  have hall : (vs.map symbol).takeWhile (fun b => decide (b ≠ padding)) = vs.map symbol := by
    refine List.takeWhile_eq_self_iff.mpr fun b hb => ?_
    obtain ⟨v, hv, rfl⟩ := List.mem_map.mp hb
    exact decide_eq_true (symbol_ne_padding (h v hv))
  unfold lastValues
  dsimp only
  rw [hall, valuesFrom_map_symbol vs h start]
  exact if_pos rfl

section Last

variable {v w x y : Nat} (start : Nat)

theorem decodeLast_pair (hv : v < 64) (hw : w < 64) (hbits : w % 16 = 0) :
    decodeLast start [symbol v, symbol w] = .ok [UInt8.ofNat (v * 4 + w / 16)] := by
  have hvalues := lastValues_map_symbol [v, w] (by simp [hv, hw]) start
  rw [decodeLast, ← List.map_singleton, ← List.map_cons, hvalues]
  exact if_pos hbits

theorem decodeLast_triple (hv : v < 64) (hw : w < 64) (hx : x < 64) (hbits : x % 4 = 0) :
    decodeLast start [symbol v, symbol w, symbol x] =
      .ok [UInt8.ofNat (v * 4 + w / 16), UInt8.ofNat (w % 16 * 16 + x / 4)] := by
  have hvalues := lastValues_map_symbol [v, w, x] (by simp [hv, hw, hx]) start
  rw [decodeLast, ← List.map_singleton, ← List.map_cons, ← List.map_cons, hvalues]
  exact if_pos hbits

theorem decodeLast_quad (hv : v < 64) (hw : w < 64) (hx : x < 64) (hy : y < 64) :
    decodeLast start [symbol v, symbol w, symbol x, symbol y] =
      .ok [UInt8.ofNat (v * 4 + w / 16), UInt8.ofNat (w % 16 * 16 + x / 4),
        UInt8.ofNat (x % 4 * 64 + y)] := by
  have hvalues := lastValues_map_symbol [v, w, x, y] (by simp [hv, hw, hx, hy]) start
  rw [decodeLast, ← List.map_singleton, ← List.map_cons, ← List.map_cons, ← List.map_cons, hvalues]
  rfl

end Last

theorem decodeFrom_quad {v w x y : Nat} {rest bytes : List UInt8} (hv : v < 64) (hw : w < 64)
    (hx : x < 64) (hy : y < 64) (start : Nat) (hrest : decodeFrom (start + 4) rest = .ok bytes) :
    decodeFrom start (symbol v :: symbol w :: symbol x :: symbol y :: rest) =
      .ok (UInt8.ofNat (v * 4 + w / 16) :: UInt8.ofNat (w % 16 * 16 + x / 4)
        :: UInt8.ofNat (x % 4 * 64 + y) :: bytes) := by
  rw [decodeFrom]
  split_ifs with hnil
  · rw [hnil] at hrest
    cases hrest
    exact decodeLast_quad start hv hw hx hy
  · rw [valueAt_symbol hv, valueAt_symbol hw, valueAt_symbol hx, valueAt_symbol hy, hrest]
    rfl

/-- Groups are read as the octets that they are the written form of. -/
theorem decodeFrom_encode (start : Nat) (bytes : List UInt8) :
    decodeFrom start (encode bytes) = .ok bytes := by
  fun_induction encode bytes generalizing start with
  | case1 => rfl
  | case2 a =>
    have ha := a.toNat_lt
    change decodeLast start _ = _
    rw [decodeLast_pair start (by omega) (by omega) (by omega),
      octet_of_eq (b := a) (by omega)]
  | case3 a b =>
    have ha := a.toNat_lt
    have hb := b.toNat_lt
    change decodeLast start _ = _
    rw [decodeLast_triple start (by omega) (by omega) (by omega) (by omega),
      octet_of_eq (b := a) (by omega), octet_of_eq (b := b) (by omega)]
  | case4 a b c rest ih =>
    have ha := a.toNat_lt
    have hb := b.toNat_lt
    have hc := c.toNat_lt
    rw [decodeFrom_quad (by omega) (by omega) (by omega) (by omega) start (ih (start + 4)),
      octet_of_eq (b := a) (by omega), octet_of_eq (b := b) (by omega),
      octet_of_eq (b := c) (by omega)]

theorem length_encode (bytes : List UInt8) : (encode bytes).length % 4 ≠ 1 := by
  fun_induction encode bytes with
  | case1 | case2 | case3 => simp
  | case4 a b c rest ih =>
    simp only [List.length_cons]
    omega

/-- **The written form of octets is read as these octets.** -/
theorem decode_encode (bytes : List UInt8) : decode (encode bytes) = .ok bytes := by
  have hstray : strayLast? (encode bytes) = none := if_neg (length_encode bytes)
  rw [decode, hstray]
  exact decodeFrom_encode 0 bytes

end TokenGate.Proofs.Text.Base64Url
