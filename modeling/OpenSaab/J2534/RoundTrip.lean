import OpenSaab.J2534.Bridge

/-!
# Both ends of the line protocol

What the bridge encodes is parsed by the server, and what the server prints is read by the bridge.
-/

namespace OpenSaab.J2534

open Can Lines Mdi

/-! ## Digits in a line -/

/-- A line of digits. -/
def AllDigits (w : List Char) : Prop := w ≠ [] ∧ ∀ c ∈ w, (digitValue 16 c).isSome = true

theorem AllDigits.isWord {w : List Char} (h : AllDigits w) : IsWord Text.whitespace w :=
  ⟨h.1, fun c hc => Text.digit_not_blank (h.2 c hc)⟩

theorem AllDigits.ascii {w : List Char} (h : AllDigits w) : ∀ c ∈ w, c.toNat < 128 :=
  fun c hc => digit_ascii (h.2 c hc)

theorem allDigits_padded {radix : Nat} (hradix : 1 < radix) (hmax : radix ≤ 16) (w n : Nat) :
    AllDigits (padded w radix n) :=
  ⟨padded_ne_nil w radix n, fun _ hc => digit_of_mem_padded hradix hmax hc⟩

theorem allDigits_digits {radix : Nat} (hradix : 1 < radix) (hmax : radix ≤ 16) (n : Nat) :
    AllDigits (digits radix n) := padded_zero radix n ▸ allDigits_padded hradix hmax 0 n

/-! ## Bytes in a line -/

theorem hex_cons (v : UInt8) (vs : List UInt8) :
    hex (v :: vs) = (v :: vs).flatMap fun v => padded 2 16 v.toNat := if_neg (by simp)

theorem length_byte (v : UInt8) : (padded 2 16 v.toNat).length = 2 :=
  length_padded (by decide) (by decide) v.toNat_lt

theorem hexPairs_hex (data : List UInt8) :
    hexPairs (data.flatMap fun v => padded 2 16 v.toNat) = some data := by
  induction data with
  | nil => rfl
  | cons v vs ih =>
    obtain ⟨a, b, hab⟩ := List.length_eq_two.mp (length_byte v)
    have hparse : parse 16 256 [a, b] = some v.toNat := by
      rw [← hab, parse_padded (by decide) (by decide) v.toNat_lt]
    rw [List.flatMap_cons, hab]
    simp only [List.cons_append, List.nil_append, hexPairs, hparse, ih, Option.bind_eq_bind,
      Option.bind_some, UInt8.ofNat_toNat]

theorem allDigits_hex {data : List UInt8} (h : data ≠ []) : AllDigits (hex data) := by
  obtain ⟨v, vs, rfl⟩ := List.exists_cons_of_ne_nil h
  rw [hex_cons]
  refine ⟨?_, fun c hc => ?_⟩
  · rw [List.flatMap_cons]
    exact List.append_ne_nil_of_left_ne_nil (padded_ne_nil 2 16 _) _
  · obtain ⟨w, -, hw⟩ := List.mem_flatMap.mp hc
    exact digit_of_mem_padded (by decide) (by decide) hw

theorem length_hex {data : List UInt8} (h : data ≠ []) : (hex data).length = 2 * data.length := by
  rw [hex, if_neg h]
  induction data with
  | nil => rfl
  | cons v vs ih =>
    rw [List.flatMap_cons, List.length_append, length_byte, List.length_cons]
    by_cases hvs : vs = []
    · subst hvs
      rfl
    · rw [ih hvs]
      omega

/-- Bytes that fit come back. -/
theorem hexData_hex {data : List UInt8} {limit : Nat} (invalid unreadable : String) (h : data ≠ [])
    (hlimit : 2 * data.length ≤ limit) : hexData limit invalid unreadable (hex data) = .ok data := by
  have hlen := length_hex h
  unfold hexData
  rw [if_neg, hex, if_neg h, hexPairs_hex]
  rw [not_or, not_or, not_not, not_not]
  exact ⟨by omega, by omega, by simpa using (allDigits_hex h).ascii⟩

/-- A dash is no digit. -/
theorem hex_eq_dash {data : List UInt8} : hex data = ['-'] ↔ data = [] := by
  constructor
  · intro h
    by_contra hne
    have hlen := length_hex hne
    rw [h, List.length_singleton] at hlen
    omega
  · rintro rfl
    rfl

theorem isWord_hex (data : List UInt8) : IsWord Text.whitespace (hex data) := by
  by_cases h : data = []
  · subst h
    exact ⟨by decide, Text.forall_of_all (by decide)⟩
  · exact (allDigits_hex h).isWord

theorem ascii_hex (data : List UInt8) : ∀ c ∈ hex data, c.toNat < 128 := by
  by_cases h : data = []
  · subst h
    exact Text.forall_of_all (by decide)
  · exact (allDigits_hex h).ascii

theorem number_padded {radix bound n : Nat} (hradix : 1 < radix) (hmax : radix ≤ 16) (h : n < bound)
    (w : Nat) (error : String) : number radix bound (padded w radix n) error = .ok n := by
  rw [number, parse_padded hradix hmax h]

theorem number_digits {radix bound n : Nat} (hradix : 1 < radix) (hmax : radix ≤ 16) (h : n < bound)
    (error : String) : number radix bound (digits radix n) error = .ok n := by
  rw [number, parse_digits hradix hmax h]

/-! ## Commands -/

/-- A route is that of its frame on the bus and of the mode, however the electrical state is spelled. -/
theorem electricalRoute_cases {c : Nat} {tx : Transmission} {route : ElectricalRoute}
    (h : electricalRoute c tx = .ok route) :
    c = 0 ∧ route = ⟨0, .data⟩ ∨
      c = 2 ∧ (route = ⟨1, .data⟩ ∨
        route = ⟨1, .singleWireWake⟩ ∧ tx.frame.id = 0x100 ∧ tx.frame.dlc = 0) := by
  unfold electricalRoute at h
  cases hvalid : tx.frame.validate with
  | error e =>
    rw [hvalid] at h
    cases h
  | ok =>
    rw [hvalid] at h
    by_cases hkind : tx.frame.extended = true ∨ tx.frame.rtr = true
    · simp [hkind] at h
    · simp only [if_neg hkind] at h
      split at h
      · split_ifs at h with hc
        exact Or.inl ⟨hc.1, (Except.ok.inj h).symm⟩
      · split_ifs at h with hc
        refine Or.inr ⟨hc.1, ?_⟩
        unfold singleWireRoute at h
        split_ifs at h with hwake hdata
        · exact Or.inr ⟨(Except.ok.inj h).symm, hwake.2⟩
        · exact Or.inl (Except.ok.inj h).symm
      · cases h

theorem electricalRoute_valid {c : Nat} {tx : Transmission} {route : ElectricalRoute}
    (h : electricalRoute c tx = .ok route) : tx.frame.validate = .ok () := by
  cases hv : tx.frame.validate with
  | error e =>
    unfold electricalRoute at h
    rw [hv] at h
    cases h
  | ok => rfl

/-- The electrical state that the server reconstructs has the route that was asked for. -/
theorem command_route {c : Nat} {tx : Transmission} {route : ElectricalRoute}
    (h : electricalRoute c tx = .ok route) :
    electricalRoute c ⟨tx.ticket, tx.frame, if c = 0 then 0xc1 else 0xdd, 0x36,
      commandState c (txFlags route.mode)⟩ = .ok route := by
  have hrouted := electricalRoute_routed h
  have hvalid := electricalRoute_valid h
  unfold electricalRoute
  simp only [hvalid, hrouted.standard.1, hrouted.standard.2, Bool.false_eq_true, or_self, if_false]
  rcases electricalRoute_cases h with ⟨rfl, rfl⟩ | ⟨rfl, rfl | ⟨rfl, hid, hdlc⟩⟩
  · rfl
  · rfl
  · simp only [commandState, txFlags, singleWireRoute, hid, hdlc]
    decide

/-- The flags of a command are those of its route, and its frame has no data if there are any. -/
theorem flags_qualified {c : Nat} {tx : Transmission} {route : ElectricalRoute}
    (h : electricalRoute c tx = .ok route) :
    ¬ (txFlags route.mode ≠ 0 ∧
      ¬ (c = 2 ∧ txFlags route.mode = hvTx ∧ tx.frame.id = 0x100 ∧ hex tx.frame.data = ['-'])) := by
  have hdata := (electricalRoute_routed h).data
  rcases electricalRoute_cases h with ⟨rfl, rfl⟩ | ⟨rfl, rfl | ⟨rfl, hid, hdlc⟩⟩
  · exact fun hflags => hflags.1 rfl
  · exact fun hflags => hflags.1 rfl
  · rw [hdlc] at hdata
    exact fun hflags => hflags.2 ⟨rfl, rfl, hid, hex_eq_dash.mpr (List.length_eq_zero_iff.mp hdata)⟩

theorem utf8_ascii {line : List Char} (h : ∀ c ∈ line, c.toNat < 128) :
    (line.map Char.utf8Size).sum = line.length := by
  induction line with
  | nil => rfl
  | cons c cs ih =>
    have hc : c.utf8Size = 1 := by
      have hlt := h c List.mem_cons_self
      unfold Char.utf8Size
      rw [if_pos]
      exact UInt32.le_iff_toNat_le.mpr (Nat.le_of_lt_succ hlt)
    rw [List.map_cons, List.sum_cons, hc, ih fun d hd => h d (List.mem_cons_of_mem c hd),
      List.length_cons, Nat.add_comm]

theorem ascii_join {ws : List (List Char)} (h : ∀ w ∈ ws, ∀ c ∈ w, c.toNat < 128) :
    ∀ c ∈ join ' ' ws, c.toNat < 128 := by
  induction ws with
  | nil => exact fun c hc => absurd hc List.not_mem_nil
  | cons w ws ih =>
    by_cases hws : ws = []
    · subst hws
      have hone : join ' ' [w] = w := by simp [join, List.intercalate]
      rw [hone]
      exact h w List.mem_cons_self
    · intro c hc
      rw [join_cons hws] at hc
      rcases List.mem_append.mp hc with hc | hc
      · exact h w List.mem_cons_self c hc
      · rcases List.mem_cons.mp hc with rfl | hc
        · decide
        · exact ih (fun v hv => h v (List.mem_cons_of_mem w hv)) c hc

/-- A command is shorter than a line may be. -/
theorem command_short {c id flags : Nat} {data : List UInt8} (hc : c < 3) (hflags : flags < 2 ^ 16)
    (hid : id ≤ 0x7ff) (hdata : (hex data).length ≤ 16) (ticket : UInt64) :
    ((join ' ' ["TX".toList, digits 10 c, digits 10 ticket.toNat, padded 4 16 flags,
      padded 3 16 id, hex data]).map Char.utf8Size).sum ≤ 256 := by
  have hten {n w : Nat} (hw : 0 < w) (h : n < 10 ^ w) : (digits 10 n).length ≤ w := by
    rw [digits, List.length_map]
    exact (Nat.length_toDigits_le_iff (by decide) hw).mpr h
  have hbus := @hten c 1 (by decide) (by omega)
  have hticket := @hten ticket.toNat 20 (by decide)
    (Nat.lt_trans ticket.toNat_lt (by decide))
  have hflags := length_padded (show 1 < 16 by decide) (show 0 < 4 by decide) hflags
  have hid := length_padded (show 1 < 16 by decide) (show 0 < 3 by decide)
    (show id < 16 ^ 3 by omega)
  have hascii : ∀ w ∈ ["TX".toList, digits 10 c, digits 10 ticket.toNat, padded 4 16 flags,
      padded 3 16 id, hex data], ∀ c ∈ w, c.toNat < 128 := by
    simp only [List.forall_mem_cons]
    exact ⟨Text.forall_of_all (by decide), (allDigits_digits (by decide) (by decide) _).ascii,
      (allDigits_digits (by decide) (by decide) _).ascii,
      (allDigits_padded (by decide) (by decide) _ _).ascii,
      (allDigits_padded (by decide) (by decide) _ _).ascii, ascii_hex data,
      fun w hw => absurd hw List.not_mem_nil⟩
  have hlength := @length_join _ ' ' ["TX".toList, digits 10 c, digits 10 ticket.toNat,
    padded 4 16 flags, padded 3 16 id, hex data] (List.cons_ne_nil _ _)
  have htx : "TX".toList.length = 2 := rfl
  simp only [List.map_cons, List.map_nil, List.sum_cons, List.sum_nil, List.length_cons,
    List.length_nil] at hlength
  rw [utf8_ascii (ascii_join hascii)]
  omega

/-- What the server makes of an encoded command. -/
def parsed (c : Nat) (tx : Transmission) (flags protocol : UInt32) :
    Nat × UInt64 × Message × Transmission :=
  (c, tx.ticket, { Message.new tx.frame.id tx.frame.data with protocol, txFlags := flags },
    ⟨tx.ticket, tx.frame, if c = 0 then 0xc1 else 0xdd, 0x36, commandState c flags⟩)

theorem command_frame {c : Nat} {tx : Transmission} {route : ElectricalRoute}
    (h : electricalRoute c tx = .ok route) (protocol flags : UInt32) :
    command c tx.ticket protocol flags tx.frame.id tx.frame.data =
      .ok (parsed c tx flags protocol) := by
  have hrouted := electricalRoute_routed h
  have hvalid := electricalRoute_valid h
  obtain ⟨ticket, ⟨id, extended, rtr, dlc, data⟩, btr0, btr1, electrical⟩ := tx
  obtain ⟨rfl, rfl⟩ : extended = false ∧ rtr = false := hrouted.standard
  have hdlc : UInt8.ofNat data.length = dlc := by
    rw [show data.length = dlc.toNat from hrouted.data, UInt8.ofNat_toNat]
  unfold command
  dsimp only at hvalid ⊢
  rw [hdlc, hvalid]
  rfl

theorem parseTx_encode {c : Nat} {tx : Transmission} {line : List Char}
    (h : encode c tx = .ok line) :
    ∃ route protocol, electricalRoute c tx = .ok route ∧ Mdi.protocol c = .ok protocol ∧
      parseTx line = .ok (parsed c tx (txFlags route.mode) protocol) := by
  unfold encode at h
  cases hroute : electricalRoute c tx with
  | error e =>
    rw [hroute] at h
    cases h
  | ok route =>
    rw [hroute] at h
    obtain rfl := Except.ok.inj h
    have hrouted := electricalRoute_routed hroute
    have hid : tx.frame.id.toNat ≤ 0x7ff := UInt32.le_iff_toNat_le.mp hrouted.id
    have hdlc : tx.frame.dlc.toNat ≤ 8 := UInt8.le_iff_toNat_le.mp hrouted.dlc
    have hdata := hrouted.data
    have hc : c < 3 := by
      rcases hrouted.controller with rfl | rfl <;> decide
    have hflags : (txFlags route.mode).toNat < 2 ^ 16 := by
      cases route.mode <;> decide
    obtain ⟨protocol, hprotocol⟩ : ∃ protocol, Mdi.protocol c = .ok protocol := by
      rcases hrouted.controller with rfl | rfl
      · exact ⟨_, rfl⟩
      · exact ⟨_, rfl⟩
    have hlength : (hex tx.frame.data).length ≤ 16 := by
      by_cases hnil : tx.frame.data = []
      · rw [hnil]
        decide
      · rw [length_hex hnil]
        omega
    have hwords := @words_join _ Text.whitespace ' '
      ["TX".toList, digits 10 c, digits 10 tx.ticket.toNat, padded 4 16 (txFlags route.mode).toNat,
        padded 3 16 tx.frame.id.toNat, hex tx.frame.data] (by decide) (by
        simp only [List.forall_mem_cons]
        exact ⟨⟨by decide, Text.forall_of_all (by decide)⟩,
          (allDigits_digits (by decide) (by decide) _).isWord,
          (allDigits_digits (by decide) (by decide) _).isWord,
          (allDigits_padded (by decide) (by decide) _ _).isWord,
          (allDigits_padded (by decide) (by decide) _ _).isWord, isWord_hex _, nofun⟩)
    have hshort := command_short hc hflags hid hlength tx.ticket
    refine ⟨route, protocol, rfl, hprotocol, ?_⟩
    unfold parseTx
    rw [hwords]
    dsimp only
    rw [if_neg (by rw [not_or, not_not]; exact ⟨Nat.not_lt.mpr hshort, rfl⟩)]
    simp only [number_digits (show 1 < 10 by decide) (show 10 ≤ 16 by decide)
        (show c < 2 ^ 64 by omega),
      number_digits (show 1 < 10 by decide) (show 10 ≤ 16 by decide) tx.ticket.toNat_lt,
      number_padded (show 1 < 16 by decide) (show 16 ≤ 16 by decide) (txFlags route.mode).toNat_lt,
      number_padded (show 1 < 16 by decide) (show 16 ≤ 16 by decide) tx.frame.id.toNat_lt,
      bind, Except.bind, hprotocol, UInt32.ofNat_toNat, UInt64.ofNat_toNat,
      if_neg (flags_qualified hroute)]
    have hcommand := command_frame hroute protocol (txFlags route.mode)
    split_ifs with hdash
    · rw [← hcommand, hex_eq_dash.mp hdash]
    · rw [hexData_hex _ _ (mt hex_eq_dash.mpr hdash) (by omega)]
      exact hcommand

/-! ## What is received -/

/-- What a message is that has been let through. -/
structure Received (c : Nat) (m : Message) : Prop where
  bus : c = 0 ∧ m.protocol = 5 ∨ c = 2 ∧ m.protocol = 0x8008
  size : 4 ≤ m.dataSize.toNat ∧ m.dataSize.toNat ≤ 12
  status : (m.rxStatus = 0 ∨ m.rxStatus = 1) ∨ c = 2 ∧ (m.rxStatus = hvRx ∨ m.rxStatus = 0x10001)
  id : identifier m.data ≤ 0x7ff

theorem validateRx_received {c : Nat} {m : Message} (h : validateRx c m = .ok ()) :
    Received c m := by
  unfold validateRx Mdi.protocol at h
  have hrest {protocol : UInt32} (hbus : c = 0 ∧ protocol = 5 ∨ c = 2 ∧ protocol = 0x8008)
      (h : (if m.protocol ≠ protocol ∨ ¬ (4 ≤ m.dataSize ∧ m.dataSize ≤ 12) ∨
          m.extraDataIndex ≠ 0 ∧ m.extraDataIndex ≠ m.dataSize ∨
          ¬ ((m.rxStatus = 0 ∨ m.rxStatus = 1) ∨
            c = 2 ∧ (m.rxStatus = hvRx ∨ m.rxStatus = 0x10001)) then
        Except.error "MDI raw receive protocol/status/bounds rejected"
      else if 0x7ff < identifier m.data then
        .error "MDI raw extended/invalid identifier rejected"
      else .ok ()) = .ok ()) : Received c m := by
    split_ifs at h with hbad hid
    rw [not_or, not_or, not_or] at hbad
    obtain ⟨hprotocol, hsize, -, hstatus⟩ := hbad
    rw [not_not] at hsize hstatus
    rw [← Decidable.of_not_not hprotocol] at hbus
    exact ⟨hbus, ⟨UInt32.le_iff_toNat_le.mp hsize.1, UInt32.le_iff_toNat_le.mp hsize.2⟩, hstatus,
      UInt32.not_lt.mp hid⟩
  by_cases h0 : c = 0
  · rw [if_pos h0] at h
    exact hrest (Or.inl ⟨h0, rfl⟩) h
  · rw [if_neg h0] at h
    by_cases h2 : c = 2
    · rw [if_pos h2] at h
      exact hrest (Or.inr ⟨h2, rfl⟩) h
    · rw [if_neg h2] at h
      cases h

/-- The frame of a message. -/
def messageFrame (m : Message) : Frame :=
  ⟨identifier m.data, false, false, UInt8.ofNat (m.dataSize.toNat - 4),
    (m.data.take m.dataSize.toNat).drop 4⟩

/-- An echo by its status, with or without high voltage. -/
def messageEcho (m : Message) : Bool := m.rxStatus == 1 || m.rxStatus == 0x10001

theorem Received.length {c : Nat} {m : Message} (h : Received c m) :
    (m.data.take m.dataSize.toNat).length = m.dataSize.toNat := by
  have hsized := m.sized
  have hsize := h.size
  rw [List.length_take]
  omega

theorem messageFrame_valid {c : Nat} {m : Message} (h : Received c m) :
    (messageFrame m).validate = .ok () := by
  have hsize := h.size
  have hdlc : (UInt8.ofNat (m.dataSize.toNat - 4)).toNat = m.dataSize.toNat - 4 := by
    rw [UInt8.toNat_ofNat']
    exact Nat.mod_eq_of_lt (by omega)
  unfold Frame.validate messageFrame
  dsimp only
  rw [if_neg]
  simp only [Bool.false_eq_true, if_false, not_or, not_not]
  refine ⟨UInt32.not_lt.mpr h.id, UInt8.not_lt.mpr (UInt8.le_iff_toNat_le.mpr ?_), ?_⟩
  · rw [hdlc]
    exact Nat.sub_le_of_le_add hsize.2
  · rw [hdlc, List.length_drop, h.length]

/-- The status of a line tells echoes from traffic on both buses. -/
theorem frameStatus_message {c : Nat} {m : Message} (h : Received c m) (bus : Fin 3)
    (hbus : bus.val = c) : (frameStatus bus m.rxStatus = 0 ↔ messageEcho m = false) ∧
      (frameStatus bus m.rxStatus = 1 ↔ messageEcho m = true) := by
  unfold messageEcho
  rcases h.status with (hs | hs) | ⟨rfl, hs | hs⟩
  · rw [hs]
    clear hbus
    revert bus
    decide
  · rw [hs]
    clear hbus
    revert bus
    decide
  · obtain rfl : bus = 2 := Fin.ext hbus
    rw [hs]
    decide
  · obtain rfl : bus = 2 := Fin.ext hbus
    rw [hs]
    decide

theorem indication_message {c : Nat} {m : Message} (h : Received c m) (bus : Fin 3)
    (hbus : bus.val = c) : indication (digits 10 c) (digits 10 m.protocol.toNat)
      (padded 8 16 m.rxStatus.toNat) (hex (m.data.take m.dataSize.toNat)) =
        .ok ⟨bus, messageFrame m, messageEcho m⟩ := by
  have hsize := h.size
  have hlength := h.length
  have hraw : rawBus c m.protocol.toNat = .ok bus := by
    rcases h.bus with ⟨hc, hp⟩ | ⟨hc, hp⟩
    · obtain rfl : bus = 0 := Fin.ext (hbus.trans hc)
      rw [hc, hp]
      rfl
    · obtain rfl : bus = 2 := Fin.ext (hbus.trans hc)
      rw [hc, hp]
      rfl
  have hne : m.data.take m.dataSize.toNat ≠ [] := by
    intro hnil
    rw [hnil, List.length_nil] at hlength
    omega
  have hdata : bytes (hex (m.data.take m.dataSize.toNat)) = .ok (m.data.take m.dataSize.toNat) :=
    hexData_hex _ _ hne (by omega)
  have hframe : (⟨identifier (m.data.take m.dataSize.toNat), false, false,
      UInt8.ofNat ((m.data.take m.dataSize.toNat).length - 4),
      (m.data.take m.dataSize.toNat).drop 4⟩ : Frame) = messageFrame m := by
    rw [hlength, messageFrame, identifier, List.take_take, Nat.min_eq_left hsize.1]
    rfl
  obtain ⟨hreceived, hecho⟩ := frameStatus_message h bus hbus
  have hc : c < 3 := hbus ▸ bus.isLt
  unfold indication
  simp only [number_digits (show 1 < 10 by decide) (show 10 ≤ 16 by decide)
      (show c < 2 ^ 64 by omega),
    number_digits (show 1 < 10 by decide) (show 10 ≤ 16 by decide) m.protocol.toNat_lt,
    number_padded (show 1 < 16 by decide) (show 16 ≤ 16 by decide) m.rxStatus.toNat_lt,
    bind, Except.bind, hraw, hdata, UInt32.ofNat_toNat, hframe, messageFrame_valid h]
  rw [if_neg (by omega)]
  cases hkind : messageEcho m with
  | false => rw [if_pos (hreceived.mpr hkind)]
  | true =>
    rw [if_neg (fun h0 => by rw [hreceived.mp h0] at hkind; cases hkind), if_pos (hecho.mpr hkind)]

/-- The line of a message is read as its frame, on its bus and as what it is. -/
theorem lineRecord_receiveLine {c : Nat} {m : Message} (h : Received c m) :
    ∃ bus : Fin 3, bus.val = c ∧ lineRecord (receiveLine c m) =
      some (.ok (.receive ⟨bus, messageFrame m, messageEcho m⟩)) := by
  obtain ⟨bus, hbus⟩ : ∃ bus : Fin 3, bus.val = c := by
    rcases h.bus with ⟨rfl, -⟩ | ⟨rfl, -⟩
    · exact ⟨0, rfl⟩
    · exact ⟨2, rfl⟩
  refine ⟨bus, hbus, ?_⟩
  have hline : receiveLine c m = linePrefix ++ join ' ' ["RX".toList, digits 10 c,
      digits 10 m.protocol.toNat, padded 8 16 m.rxStatus.toNat, digits 10 m.timestamp.toNat,
      hex (m.data.take m.dataSize.toNat)] := by
    rw [receiveLine, join_cons (by simp)]
    rfl
  have hwords := @words_join _ Text.whitespace ' ' ["RX".toList, digits 10 c,
      digits 10 m.protocol.toNat, padded 8 16 m.rxStatus.toNat, digits 10 m.timestamp.toNat,
      hex (m.data.take m.dataSize.toNat)] (by decide) (by
        simp only [List.forall_mem_cons]
        exact ⟨⟨by decide, Text.forall_of_all (by decide)⟩,
          (allDigits_digits (by decide) (by decide) _).isWord,
          (allDigits_digits (by decide) (by decide) _).isWord,
          (allDigits_padded (by decide) (by decide) _ _).isWord,
          (allDigits_digits (by decide) (by decide) _).isWord, isWord_hex _, nofun⟩)
  unfold lineRecord
  rw [hline, if_pos (List.isPrefixOf_iff_prefix.mpr (List.prefix_append _ _)), List.drop_left]
  have hready : join ' ' ["RX".toList, digits 10 c, digits 10 m.protocol.toNat,
      padded 8 16 m.rxStatus.toNat, digits 10 m.timestamp.toNat,
      hex (m.data.take m.dataSize.toNat)] ≠ readyLine := by
    intro heq
    have hfirst : (words Text.whitespace readyLine).head? = some "READY".toList := by decide
    rw [← heq, hwords] at hfirst
    exact absurd (Option.some.inj hfirst) (by decide)
  unfold Record.read
  rw [hwords]
  dsimp only
  rw [if_neg hready, if_neg (by decide), if_neg (by decide), if_pos rfl,
    indication_message h bus hbus]
  rfl

/-- White space at the end of a line goes. -/
theorem trim_newline {line : List Char} (hne : line ≠ [])
    (hfirst : ∀ c, line.head? = some c → Text.whitespace c = false)
    (hlast : ∀ c, line.getLast? = some c → Text.whitespace c = false) :
    Text.trim (line ++ ['\n']) = line := by
  obtain ⟨a, rest, rfl⟩ := List.exists_cons_of_ne_nil hne
  have ha : ¬ Text.whitespace a = true := by rw [hfirst a rfl]; decide
  obtain ⟨init, z, hz⟩ := List.eq_nil_or_concat (a :: rest) |>.resolve_left hne
  have hzblank : ¬ Text.whitespace z = true := by
    rw [hlast z (by rw [hz, List.concat_eq_append, List.getLast?_concat])]
    decide
  unfold Text.trim
  rw [List.cons_append, List.dropWhile_cons_of_neg ha, ← List.cons_append, List.reverse_append,
    List.reverse_singleton, List.singleton_append, List.dropWhile_cons_of_pos (by decide), hz,
    List.concat_eq_append, List.reverse_append, List.reverse_singleton, List.singleton_append,
    List.dropWhile_cons_of_neg hzblank, List.reverse_cons, List.reverse_reverse]

theorem receiveLine_words (c : Nat) (m : Message) :
    ∀ w ∈ ["BRIDGE".toList, "RX".toList, digits 10 c, digits 10 m.protocol.toNat,
      padded 8 16 m.rxStatus.toNat, digits 10 m.timestamp.toNat,
      hex (m.data.take m.dataSize.toNat)], IsWord Text.whitespace w ∧ ∀ c ∈ w, c.toNat < 128 := by
  simp only [List.forall_mem_cons]
  have hdigits (n : Nat) := allDigits_digits (show 1 < 10 by decide) (by decide) n
  have hpadded (n : Nat) := allDigits_padded (show 1 < 16 by decide) (by decide) 8 n
  exact ⟨⟨⟨by decide, Text.forall_of_all (by decide)⟩, Text.forall_of_all (by decide)⟩,
    ⟨⟨by decide, Text.forall_of_all (by decide)⟩, Text.forall_of_all (by decide)⟩,
    ⟨(hdigits _).isWord, (hdigits _).ascii⟩, ⟨(hdigits _).isWord, (hdigits _).ascii⟩,
    ⟨(hpadded _).isWord, (hpadded _).ascii⟩, ⟨(hdigits _).isWord, (hdigits _).ascii⟩,
    ⟨isWord_hex _, ascii_hex _⟩, nofun⟩

/-- The reader of the bridge hands the printed line on without its end. -/
theorem handedOn_receiveLine {c : Nat} {m : Message} (h : Received c m) :
    handedOn (receiveLine c m ++ ['\n']) = receiveLine c m := by
  have hwords := receiveLine_words c m
  have hword := fun w hw => (hwords w hw).1
  have hne : receiveLine c m ≠ [] := join_ne_nil (List.cons_ne_nil _ _) hword
  have hascii : ∀ c' ∈ receiveLine c m ++ ['\n'], c'.toNat < 128 := by
    intro c' hc'
    rcases List.mem_append.mp hc' with hc' | hc'
    · exact ascii_join (fun w hw => (hwords w hw).2) c' hc'
    · rw [List.mem_singleton.mp hc']
      decide
  have hten {n w : Nat} (hw : 0 < w) (h : n < 10 ^ w) : (digits 10 n).length ≤ w := by
    rw [digits, List.length_map]
    exact (Nat.length_toDigits_le_iff (by decide) hw).mpr h
  have hc : c < 10 ^ 1 := by
    rcases h.bus with ⟨rfl, -⟩ | ⟨rfl, -⟩ <;> decide
  have hbus := hten (by decide) hc
  have hprotocol := @hten m.protocol.toNat 10 (by decide)
    (Nat.lt_trans m.protocol.toNat_lt (by decide))
  have htimestamp := @hten m.timestamp.toNat 10 (by decide)
    (Nat.lt_trans m.timestamp.toNat_lt (by decide))
  have hstatus := length_padded (show 1 < 16 by decide) (show 0 < 8 by decide) m.rxStatus.toNat_lt
  have hsize := h.size
  have hdata : m.data.take m.dataSize.toNat ≠ [] := by
    intro hnil
    have hlength := h.length
    rw [hnil, List.length_nil] at hlength
    omega
  have hhex := length_hex hdata
  rw [h.length] at hhex
  have hlength := @length_join _ ' ' ["BRIDGE".toList, "RX".toList, digits 10 c,
    digits 10 m.protocol.toNat, padded 8 16 m.rxStatus.toNat, digits 10 m.timestamp.toNat,
    hex (m.data.take m.dataSize.toNat)] (List.cons_ne_nil _ _)
  simp only [List.map_cons, List.map_nil, List.sum_cons, List.sum_nil, List.length_cons,
    List.length_nil] at hlength
  have hbridge : "BRIDGE".toList.length = 6 := rfl
  have hrx : "RX".toList.length = 2 := rfl
  unfold handedOn
  rw [if_neg, trim_newline hne (fun c' hc' => ?_) fun c' hc' =>
    getLast_join (List.cons_ne_nil _ _) hword hc']
  · have hfirst : (receiveLine c m).head? = some 'B' := by
      rw [receiveLine, join_cons (List.cons_ne_nil _ _)]
      rfl
    rw [hfirst] at hc'
    rw [← Option.some.inj hc']
    decide
  · rw [utf8_ascii hascii, List.length_append, List.length_singleton, receiveLine]
    omega

/-! ## Both directions -/

/-- A command that is encoded comes out of the parser with its ticket, its frame and its route, and a
message that is let through comes to the bridge as its frame, as traffic or as an echo. -/
theorem line_round_trip :
    (∀ c tx line, encode c tx = .ok line → ∃ route message tx',
      electricalRoute c tx = .ok route ∧ parseTx line = .ok (c, tx.ticket, message, tx') ∧
        tx'.ticket = tx.ticket ∧ tx'.frame = tx.frame ∧ electricalRoute c tx' = .ok route ∧
        (message.txFlags = hvTx ↔ route.mode = .singleWireWake) ∧
        (message.txFlags = 0 ↔ route.mode = .data) ∧ identifier message.data = tx.frame.id ∧
        (message.data.take message.dataSize.toNat).drop 4 = tx.frame.data) ∧
    ∀ c m, validateRx c m = .ok () → ∃ i : Indication, i.controller.val = c ∧
      i.frame.id = identifier m.data ∧ i.frame.data = (m.data.take m.dataSize.toNat).drop 4 ∧
      (i.echo = false ↔ m.rxStatus = 0 ∨ m.rxStatus = hvRx) ∧
      (i.echo = true ↔ m.rxStatus = 1 ∨ m.rxStatus = 0x10001) ∧
      ∀ b : Bridge, b.take (handedOn (receiveLine c m ++ ['\n'])) =
        (b.receive i).map fun r => (r.1, some r.2) := by
  refine ⟨fun c tx line h => ?_, fun c m h => ?_⟩
  · obtain ⟨route, protocol, hroute, -, hparse⟩ := parseTx_encode h
    have hrouted := electricalRoute_routed hroute
    have hdlc : tx.frame.dlc.toNat ≤ 8 := UInt8.le_iff_toNat_le.mp hrouted.dlc
    obtain ⟨hsize, hpayload⟩ := @new_payload tx.frame.id tx.frame.data
      (by rw [hrouted.data]; exact hdlc)
    refine ⟨route, _, _, hroute, hparse, rfl, rfl, command_route hroute, ?_, ?_,
      new_identifier _ _, ?_⟩
    · change txFlags route.mode = hvTx ↔ _
      cases route.mode <;> decide
    · change txFlags route.mode = 0 ↔ _
      cases route.mode <;> decide
    · change ((Message.new tx.frame.id tx.frame.data).data.take
        (Message.new tx.frame.id tx.frame.data).dataSize.toNat).drop 4 = _
      rw [hsize, hpayload]
  · have hreceived := validateRx_received h
    obtain ⟨bus, hbus, hline⟩ := lineRecord_receiveLine hreceived
    have hecho : messageEcho m = true ↔ m.rxStatus = 1 ∨ m.rxStatus = 0x10001 := by
      simp [messageEcho]
    refine ⟨⟨bus, messageFrame m, messageEcho m⟩, hbus, rfl, rfl, ?_, hecho, fun b => ?_⟩
    · rw [← Bool.not_eq_true, hecho]
      rcases hreceived.status with (hs | hs) | ⟨-, hs | hs⟩
      all_goals
        rw [hs]
        decide
    · rw [handedOn_receiveLine hreceived, Bridge.take, hline]

/-- The wake frame of the single wire. -/
def wakeTransmission : Transmission :=
  ⟨1, ⟨0x100, false, false, 0, []⟩, 0xdd, 0x36, .singleWireGpio 0x26 0 0x7f⟩

theorem line_round_trip_wake : ∃ message tx',
    parseTx "TX 2 1 0400 100 -".toList = .ok (2, 1, message, tx') ∧
      tx'.frame = wakeTransmission.frame := by
  obtain ⟨route, message, tx', -, hparse, -, hframe, -⟩ :=
    line_round_trip.1 2 wakeTransmission "TX 2 1 0400 100 -".toList (by decide +kernel)
  exact ⟨message, tx', hparse, hframe⟩

end OpenSaab.J2534
