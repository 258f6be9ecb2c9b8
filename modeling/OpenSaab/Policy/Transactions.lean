import Mathlib.Data.List.Chain
import OpenSaab.Library.Runs
import OpenSaab.Policy.CommandGate

/-!
# What the gate lets out

The gate decides frame by frame; the vehicle puts the frames together. What it puts together are the
requests that the profile permits.
-/

namespace OpenSaab.Policy

open Can Runs

/-! ## Permitted requests -/

/-- Requests that read, or that set up what is read. -/
inductive Reads : List UInt8 → Prop
  | programmingState : Reads [0xa2]
  | data (id : UInt8) : Reads [0x1a, id]
  | present : Reads [0x3e]
  | normal : Reads [0x20]
  | packet (id : UInt8) : Reads [0xaa, 1, id]
  | codes {mask : UInt8} (h : mask = 0x10 ∨ mask = 0x12 ∨ mask = 0x0c) : Reads [0xa9, 0x81, mask]
  | session {kind : UInt8} (h : kind = 1 ∨ kind = 2) : Reads [0x10, kind]
  | definition {id : UInt8} {pids : List UInt8} (hid : 0xf3 ≤ id ∧ id ≤ 0xfe) (hne : pids ≠ [])
      (heven : pids.length % 2 = 0) : Reads (0x2c :: id :: pids)
  | packets {rate : UInt8} {ids : List UInt8} (hrate : rate ≤ 4) (hne : rate = 0 ∨ ids ≠ [])
      (hids : ∀ v ∈ ids, packetId v) : Reads (0xaa :: rate :: ids)

inductive Permitted : Profile → List UInt8 → Prop
  | read {p : Profile} {r : List UInt8} (h : Reads r) : Permitted p r
  | seed {level : UInt8} (h : level = 1 ∨ level = 0x0b) : Permitted .seeds [0x27, level]
  | challenge : Permitted .seeds [0xae, 0]
  | clear : Permitted .clearDtc [4]
  | clearStatus : Permitted .clearDtc [0xa9, 0x81, 0x0a]

/-- No key, no transfer and no write, and in a session that reads no seed and no erasure either. -/
structure Harmless (p : Profile) (r : List UInt8) : Prop where
  services : ∀ s ∈ r.head?, s ≠ 0x34 ∧ s ≠ 0x36 ∧ s ≠ 0x3b
  seeds : r.head? = some 0x27 → p = .seeds ∧ (r = [0x27, 1] ∨ r = [0x27, 0x0b])
  reads : p = .read → ∀ s ∈ r.head?, s ≠ 0x27 ∧ s ≠ 0x04 ∧ s ≠ 0xae

theorem reads_harmless {p : Profile} {r : List UInt8} (h : Reads r) : Harmless p r := by
  cases h <;> exact ⟨by simp, by simp, by simp⟩

theorem permitted_harmless {p : Profile} {r : List UInt8} (h : Permitted p r) : Harmless p r := by
  cases h with
  | read h => exact reads_harmless h
  | seed h =>
    refine ⟨by simp, fun _ => ⟨rfl, ?_⟩, by simp⟩
    rcases h with rfl | rfl
    · exact Or.inl rfl
    · exact Or.inr rfl
  | challenge => exact ⟨by simp, by simp, by simp⟩
  | clear => exact ⟨by simp, by simp, by simp⟩
  | clearStatus => exact ⟨by simp, by simp, by simp⟩

theorem readRequest_reads {controller : Nat} {id : UInt32} {data r : List UInt8}
    (h : readRequest controller id data r = true) : Reads r := by
  match r with
  | [] => simp [readRequest] at h
  | [service] =>
    simp only [readRequest] at h
    split at h
    · next heq => exact heq ▸ .programmingState
    · simp only [Bool.or_eq_true, beq_iff_eq] at h
      rcases h with rfl | rfl
      · exact .present
      · exact .normal
  | service :: sub :: rest =>
    simp only [readRequest, Bool.or_eq_true, Bool.and_eq_true, beq_iff_eq, bne_iff_ne, ne_eq,
      decide_eq_true_eq, List.all_eq_true] at h
    rcases h with ((((h | h) | h) | h) | h) | h
    · obtain ⟨rfl, rfl⟩ := h
      exact .data sub
    · obtain ⟨⟨rfl, rfl⟩, hlen⟩ := h
      obtain ⟨v, rfl⟩ := List.length_eq_one_iff.mp hlen
      exact .packet v
    · obtain ⟨⟨rfl, rfl⟩, hrest⟩ := h
      rcases hrest with (rfl | rfl) | rfl
      · exact .codes (Or.inl rfl)
      · exact .codes (Or.inr (Or.inl rfl))
      · exact .codes (Or.inr (Or.inr rfl))
    · obtain ⟨⟨rfl, hsub⟩, rfl⟩ := h
      exact .session hsub
    · obtain ⟨⟨⟨⟨⟨⟨rfl, hlow⟩, hhigh⟩, -⟩, -⟩, hne⟩, heven⟩ := h
      exact .definition ⟨hlow, hhigh⟩ hne heven
    · obtain ⟨⟨⟨⟨⟨rfl, hrate⟩, -⟩, -⟩, hne⟩, hids⟩ := h
      exact .packets hrate hne hids

/-- What the three lists let through together. -/
theorem request_permitted {controller : Nat} {id : UInt32} {data r : List UInt8} {p : Profile}
    {near : Prop} (h : (p = .seeds ∧ near) ∧ seedRequest controller id r = true ∨
      p = .clearDtc ∧ clearRequest r = true ∨ readRequest controller id data r = true) :
    Permitted p r := by
  rcases h with ⟨⟨rfl, -⟩, hseed⟩ | ⟨rfl, hclear⟩ | hread
  · simp only [seedRequest, Bool.or_eq_true, Bool.and_eq_true, beq_iff_eq] at hseed
    rcases hseed with (⟨⟨rfl, -⟩, -⟩ | ⟨rfl, -⟩) | ⟨⟨rfl, -⟩, -⟩
    · exact .challenge
    · exact .seed (Or.inl rfl)
    · exact .seed (Or.inr rfl)
  · simp only [clearRequest, Bool.or_eq_true, beq_iff_eq] at hclear
    rcases hclear with rfl | rfl
    · exact .clear
    · exact .clearStatus
  · exact .read (readRequest_reads hread)

/-- The request of a single frame, with or without an address byte in front. -/
def singleRequest (data : List UInt8) : Option (List UInt8) :=
  let offset := if data[0]? = some 0xfe then 1 else 0
  match data[offset]? with
  | none => none
  | some pci =>
    if pci.toNat < 1 ∨ 7 < pci.toNat ∨ data.length < offset + 1 + pci.toNat then none
    else some ((data.drop (offset + 1)).take pci.toNat)

/-- What one frame can be: a wake-up, flow control, or a request that it holds whole. -/
inductive Single (controller : Nat) (tx : Transmission) (p : Profile) : Prop
  | wake (hc : controller = 2) (hid : tx.frame.id = 0x100) (hdata : tx.frame.data = [])
  | flow (offset : Nat) (ho : offset = if tx.frame.data[0]? = some 0xfe then 1 else 0)
      (h : tx.frame.data[offset]? = some 0x30)
  | request {r : List UInt8} (hr : singleRequest tx.frame.data = some r) (h : Permitted p r)

theorem allowed_single {controller : Nat} {tx : Transmission} {p : Profile}
    (h : allowedForProfile controller tx p = true) : Single controller tx p := by
  unfold allowedForProfile at h
  split at h
  · cases h
  · dsimp only at h
    split at h
    · simp only [Bool.and_eq_true, List.isEmpty_iff, beq_iff_eq] at h
      exact .wake h.1.1 h.1.2 h.2
    · split at h
      · cases h
      · obtain ⟨offset, hoffset⟩ : ∃ n, n = if tx.frame.data[0]? = some 0xfe then 1 else 0 := ⟨_, rfl⟩
        rw [← hoffset] at h
        cases hpci : tx.frame.data[offset]? with
        | none => simp [hpci] at h
        | some pci =>
          simp only [hpci] at h
          by_cases hflow : pci = 0x30
          · subst hflow
            exact .flow offset hoffset hpci
          · rw [if_neg hflow] at h
            by_cases hn : pci.toNat < 1 ∨ 7 < pci.toNat ∨ tx.frame.data.length < offset + 1 + pci.toNat
            · rw [if_pos hn] at h
              cases h
            · rw [if_neg hn] at h
              simp only [Bool.or_eq_true, Bool.and_eq_true, beq_iff_eq, or_assoc] at h
              refine .request ?_ (request_permitted h)
              simp only [singleRequest, ← hoffset, hpci, if_neg hn]

end OpenSaab.Policy

/-!
## Runs of the gate

Whatever is offered to the gate, in whatever order: what it lets out on one identifier is a list of
requests, and each of them is one that the profile permits.
-/

namespace OpenSaab.Policy

open Can Runs

/-! ## Offers -/

structure Offer where
  controller : Nat
  tx : Transmission
  profile : Profile
  now : Nat
  deriving DecidableEq, Repr

def Offer.data (o : Offer) : List UInt8 := o.tx.frame.data

def Offer.key (o : Offer) : Nat × UInt32 := (o.controller, o.tx.frame.id)

def engineKey : Nat × UInt32 := (0, 0x7e0)

def CommandGate.offer (g : CommandGate) (o : Offer) : CommandGate :=
  (g.allowed o.controller o.tx o.profile o.now).1

def CommandGate.admits (g : CommandGate) (o : Offer) : Bool :=
  (g.allowed o.controller o.tx o.profile o.now).2

def CommandGate.admitted (g : CommandGate) (o : Offer) : List Offer := if g.admits o then [o] else []

theorem engine_iff {o : Offer} : engine o.controller o.tx = true ↔ o.key = engineKey := by
  simp [engine, Offer.key, engineKey]

/-! ## One offer -/

/-- The three ways in which a frame is let out. -/
inductive Admission (g : CommandGate) (o : Offer) : CommandGate → Prop
  | opens (hidle : g.packet = none) (hkey : o.key = engineKey) (hlen : o.data.length = 8)
      (hpci : o.data.getD 0 0 &&& 0xf0 = 0x10) (hkind : opensRead o.data ∨ opensDefinition o.data) :
      Admission g o
        ⟨some ⟨firstLength o.data - 6, 1, o.now + continuationLimit, o.profile, opensRead o.data⟩⟩
  | goesOn {p : PacketContinuation} (hp : g.packet = some p) (hkey : o.key = engineKey)
      (hpci : o.data.getD 0 0 &&& 0xf0 = 0x20) (h : p.takes true o.data o.profile o.now) :
      Admission g o ⟨p.advance o.now⟩
  | single (hidle : o.key = engineKey → g.packet = none)
      (h : allowedForProfile o.controller o.tx o.profile) : Admission g o g

/-- A refused offer leaves the gate as it was; an admitted one is of one of the three kinds. -/
theorem offer_cases (g : CommandGate) (o : Offer) :
    g.admits o = false ∧ g.offer o = g ∨ g.admits o = true ∧ Admission g o (g.offer o) := by
  unfold CommandGate.admits CommandGate.offer CommandGate.allowed
  split
  · exact Or.inl ⟨rfl, rfl⟩
  · dsimp only
    split
    · next hfirst =>
      obtain ⟨hengine, hlen, hpci⟩ := hfirst
      split
      · exact Or.inl ⟨rfl, rfl⟩
      · next hopen =>
        rw [not_or, not_not, Option.not_isSome_iff_eq_none] at hopen
        exact Or.inr ⟨rfl, .opens hopen.1 (engine_iff.mp hengine) hlen hpci hopen.2⟩
    · split
      · next hnext =>
        split
        · exact Or.inl ⟨rfl, rfl⟩
        · next p hp =>
          split
          · next htakes =>
            have hengine : engine o.controller o.tx = true := by
              simp only [PacketContinuation.takes, Bool.and_eq_true] at htakes
              exact htakes.1.1.1.1.1
            rw [hengine] at htakes
            exact Or.inr ⟨rfl, .goesOn hp (engine_iff.mp hengine) hnext.2 htakes⟩
          · exact Or.inl ⟨rfl, rfl⟩
      · split
        · exact Or.inl ⟨rfl, rfl⟩
        · next hidle =>
          cases hallowed : allowedForProfile o.controller o.tx o.profile with
          | false => exact Or.inl ⟨rfl, rfl⟩
          | true =>
            refine Or.inr ⟨rfl, .single (fun hkey => ?_) hallowed⟩
            rw [not_and, Option.not_isSome_iff_eq_none] at hidle
            exact hidle (engine_iff.mpr hkey)

theorem allowed_refused {g : CommandGate} {controller : Nat} {tx : Transmission} {profile : Profile}
    {now : Nat} (h : (g.allowed controller tx profile now).2 = false) :
    (g.allowed controller tx profile now).1 = g := by
  rcases offer_cases g ⟨controller, tx, profile, now⟩ with ⟨-, hsame⟩ | ⟨hyes, -⟩
  · exact hsame
  · exact absurd (h.symm.trans hyes) (by decide)

theorem allowed_route {g : CommandGate} {controller : Nat} {tx : Transmission} {profile : Profile}
    {now : Nat} (h : (g.allowed controller tx profile now).2 = true) :
    ∃ route, electricalRoute controller tx = .ok route := by
  unfold CommandGate.allowed at h
  cases hroute : electricalRoute controller tx with
  | error e => simp [hroute] at h
  | ok route => exact ⟨route, rfl⟩

/-- A frame of a segmented request, by its first byte. -/
def segment (d : List UInt8) : Bool := d.getD 0 0 &&& 0xf0 == 0x10 || d.getD 0 0 &&& 0xf0 == 0x20

theorem segment_iff {d : List UInt8} :
    segment d = true ↔ d.getD 0 0 &&& 0xf0 = 0x10 ∨ d.getD 0 0 &&& 0xf0 = 0x20 := by
  rw [segment, Bool.or_eq_true, beq_iff_eq, beq_iff_eq]

theorem segment_byte {b : UInt8} (h : b &&& 0xf0 = 0x10 ∨ b &&& 0xf0 = 0x20) :
    b ≠ 0xfe ∧ b ≠ 0x30 ∧ 7 < b.toNat := by
  have hall : ∀ n < 256, UInt8.ofNat n &&& 0xf0 = 0x10 ∨ UInt8.ofNat n &&& 0xf0 = 0x20 →
      UInt8.ofNat n ≠ 0xfe ∧ UInt8.ofNat n ≠ 0x30 ∧ 7 < (UInt8.ofNat n).toNat := by decide +kernel
  have hb := hall b.toNat b.toNat_lt
  rw [UInt8.ofNat_toNat] at hb
  exact hb h

/-- The allowlist lets no such frame out on its own. -/
theorem segment_not_single {controller : Nat} {tx : Transmission} {p : Profile}
    (h : segment tx.frame.data = true) : allowedForProfile controller tx p = false := by
  obtain ⟨hfe, hflow, hlong⟩ := segment_byte (segment_iff.mp h)
  unfold allowedForProfile
  split
  · rfl
  · dsimp only
    cases hdata : tx.frame.data with
    | nil =>
      rw [hdata] at h
      cases h
    | cons b rest =>
      rw [hdata, List.getD_cons_zero] at hfe hflow hlong
      simp only [List.isEmpty_cons, Bool.and_false, Bool.false_or, List.getElem?_cons_zero,
        Option.some.injEq, hfe, if_false, hflow]
      split
      · rfl
      · split
        · rfl
        · rw [if_pos (Or.inr (Or.inl hlong))]

/-- The gate moves on exactly with the frames of segmented requests that it lets out. -/
theorem allowed_moves_iff {g : CommandGate} {controller : Nat} {tx : Transmission} {p : Profile}
    {now : Nat} : (g.allowed controller tx p now).1 ≠ g ↔
      (g.allowed controller tx p now).2 = true ∧ segment tx.frame.data = true := by
  rcases offer_cases g ⟨controller, tx, p, now⟩ with ⟨hno, hsame⟩ | ⟨hyes, ha⟩
  · unfold CommandGate.admits CommandGate.offer at *
    simp [hno, hsame]
  · unfold CommandGate.admits CommandGate.offer at *
    dsimp only at hyes ha
    rw [hyes]
    generalize (g.allowed controller tx p now).1 = g' at ha
    cases ha with
    | opens hidle _ _ hpci =>
      refine iff_of_true ?_ ⟨rfl, segment_iff.mpr (Or.inl hpci)⟩
      rintro rfl
      cases hidle
    | @goesOn q hq _ hpci =>
      refine iff_of_true ?_ ⟨rfl, segment_iff.mpr (Or.inr hpci)⟩
      rintro rfl
      unfold PacketContinuation.advance at hq
      split_ifs at hq with hdone
      have hremaining := congrArg PacketContinuation.remaining (Option.some.inj hq)
      dsimp only at hremaining
      omega
    | single _ hallowed =>
      refine iff_of_false (fun h => h rfl) ?_
      rintro ⟨-, hsegment⟩
      rw [segment_not_single hsegment] at hallowed
      cases hallowed

/-! ## Segmented requests -/

/-- The bytes of the request that the frames carry, as the receiver puts them together. -/
def payload (first : Offer) (conts : List Offer) : List UInt8 :=
  (first.data.drop 2 ++ conts.flatMap (·.data.drop 1)).take (firstLength first.data)

/-- The first frame of a request and the consecutive frames that have followed it. -/
structure Transaction (first : Offer) (conts : List Offer) : Prop where
  engine : ∀ o ∈ first :: conts, o.key = engineKey
  eight : ∀ o ∈ first :: conts, o.data.length = 8
  opens : first.data.getD 0 0 &&& 0xf0 = 0x10
  kind : opensRead first.data ∨ opensDefinition first.data
  profile : ∀ o ∈ conts, o.profile = first.profile
  numbered : ∀ i o, conts[i]? = some o → o.data.getD 0 0 = 0x20 ||| UInt8.ofNat ((i + 1) % 16)
  timely : List.IsChain (fun a b => b.now < a.now + continuationLimit) (first :: conts)
  /-- No frame more than the length asks for. -/
  needed : 6 + 7 * conts.length < firstLength first.data + 7
  identifiers : opensRead first.data → ∀ v ∈ (payload first conts).drop 2, packetId v

/-- All that the frames carry, before it is cut to the length. -/
theorem carried_length {first : Offer} {conts : List Offer}
    (h : ∀ o ∈ first :: conts, o.data.length = 8) :
    (first.data.drop 2 ++ conts.flatMap (·.data.drop 1)).length = 6 + 7 * conts.length := by
  have hconts : (conts.flatMap (·.data.drop 1)).length = 7 * conts.length := by
    induction conts with
    | nil => rfl
    | cons o conts ih =>
      have ho : o.data.length = 8 := h o (by simp)
      have hrest := ih fun o' ho' => h o' (by simp only [List.mem_cons] at ho' ⊢; tauto)
      simp only [List.flatMap_cons, List.length_append, List.length_drop, List.length_cons, ho,
        hrest]
      omega
  rw [List.length_append, List.length_drop, h first (by simp), hconts]

theorem payload_length {first : Offer} {conts : List Offer}
    (h : ∀ o ∈ first :: conts, o.data.length = 8) :
    (payload first conts).length = min (firstLength first.data) (6 + 7 * conts.length) := by
  rw [payload, List.length_take, carried_length h]

/-- The service and the byte after it come with the first frame. -/
theorem payload_cons {first : Offer} {conts : List Offer} (hd : first.data.length = 8)
    (hlen : 2 ≤ firstLength first.data) :
    payload first conts =
      first.data.getD 2 0 :: first.data.getD 3 0 :: (payload first conts).drop 2 := by
  obtain ⟨n, hn⟩ : ∃ n, firstLength first.data = n + 2 := ⟨firstLength first.data - 2, by omega⟩
  unfold payload
  rw [hn]
  match first.data, hd with
  | [_, _, _, _, _, _, _, _], _ => rfl

/-- A further frame adds what is still missing. -/
theorem payload_append {first : Offer} {conts : List Offer} {o : Offer}
    (h : ∀ o ∈ first :: conts, o.data.length = 8) (ho : o.data.length = 8) :
    payload first (conts ++ [o]) = payload first conts ++
      (o.data.drop 1).take (min (firstLength first.data - (6 + 7 * conts.length)) 7) := by
  unfold payload
  rw [List.flatMap_append, ← List.append_assoc, List.take_append, carried_length h]
  congr 1
  rw [List.flatMap_singleton, ← List.take_take, List.take_of_length_le (i := 7)]
  simp [ho]

/-- What the gate keeps of a request under way, from its frames alone. -/
def pending (first : Offer) (conts : List Offer) : PacketContinuation where
  remaining := firstLength first.data - (6 + 7 * conts.length)
  sequence := UInt8.ofNat ((conts.length + 1) % 16)
  deadline := ((first :: conts).getLast (by simp)).now + continuationLimit
  profile := first.profile
  packetRead := opensRead first.data

theorem opensRead_length {d : List UInt8} (h : opensRead d) : 8 ≤ firstLength d ∧ firstLength d ≤ 32 := by
  simp only [opensRead, Bool.and_eq_true, decide_eq_true_eq] at h
  exact ⟨h.1.1.2, h.1.2⟩

theorem opensDefinition_length {d : List UInt8} (h : opensDefinition d) :
    8 ≤ firstLength d ∧ firstLength d ≤ 16 := by
  simp only [opensDefinition, Bool.and_eq_true, decide_eq_true_eq] at h
  exact ⟨h.1.1.2, h.1.2⟩

theorem Transaction.eight_le {first : Offer} {conts : List Offer} (h : Transaction first conts) :
    8 ≤ firstLength first.data := by
  rcases h.kind with hk | hk
  · exact (opensRead_length hk).1
  · exact (opensDefinition_length hk).1

/-- The first frame begins a request, and the gate keeps what follows from it. -/
theorem transaction_open {o : Offer} (hkey : o.key = engineKey) (hlen : o.data.length = 8)
    (hpci : o.data.getD 0 0 &&& 0xf0 = 0x10) (hkind : opensRead o.data ∨ opensDefinition o.data) :
    Transaction o [] where
  engine := by simpa using hkey
  eight := by simpa using hlen
  opens := hpci
  kind := hkind
  profile := by simp
  numbered := by simp
  timely := by simp
  needed := by simp
  identifiers := by
    intro hread v hv
    have hids : ∀ v ∈ o.data.drop 4, packetId v = true := by
      simp only [opensRead, Bool.and_eq_true, List.all_eq_true] at hread
      exact hread.2
    refine hids v ?_
    have hdrop : (payload o []).drop 2 <+: o.data.drop 4 := by
      unfold payload
      rw [List.flatMap_nil, List.append_nil, List.drop_take, List.drop_drop]
      exact List.take_prefix _ _
    exact hdrop.subset hv

theorem sequence_next (n : Nat) :
    (UInt8.ofNat (n % 16) + 1) &&& 15 = UInt8.ofNat ((n + 1) % 16) := by
  have hsmall : ∀ m < 16, (UInt8.ofNat m + 1) &&& 15 = UInt8.ofNat ((m + 1) % 16) := by decide
  rw [hsmall (n % 16) (Nat.mod_lt n (by omega)), Nat.add_mod, Nat.mod_mod, ← Nat.add_mod]

/-- A frame that the gate takes goes on with the request. -/
theorem Transaction.append {first o : Offer} {conts : List Offer} (h : Transaction first conts)
    (hmissing : 6 + 7 * conts.length < firstLength first.data) (hkey : o.key = engineKey)
    (ht : (pending first conts).takes true o.data o.profile o.now) :
    Transaction first (conts ++ [o]) := by
  simp only [PacketContinuation.takes, Bool.and_eq_true, Bool.true_and, beq_iff_eq,
    decide_eq_true_eq, Bool.or_eq_true, Bool.not_eq_true', List.all_eq_true] at ht
  obtain ⟨⟨⟨⟨hlen, hnow⟩, hprofile⟩, hseq⟩, hids⟩ := ht
  constructor
  · simp only [← List.cons_append, List.forall_mem_append, List.forall_mem_singleton]
    exact ⟨h.engine, hkey⟩
  · simp only [← List.cons_append, List.forall_mem_append, List.forall_mem_singleton]
    exact ⟨h.eight, hlen⟩
  · exact h.opens
  · exact h.kind
  · simp only [List.forall_mem_append, List.forall_mem_singleton]
    exact ⟨h.profile, hprofile⟩
  · intro i o' hi
    rcases Nat.lt_trichotomy i conts.length with hlt | rfl | hgt
    · rw [List.getElem?_append_left hlt] at hi
      exact h.numbered i o' hi
    · rw [List.getElem?_concat_length, Option.some.injEq] at hi
      exact hi ▸ hseq
    · rw [List.getElem?_eq_none (by simp; omega)] at hi
      cases hi
  · rw [← List.cons_append, List.isChain_append]
    refine ⟨h.timely, List.isChain_singleton o, ?_⟩
    intro a ha b hb
    rw [List.getLast?_eq_some_getLast (by simp), Option.mem_some_iff] at ha
    rw [List.head?_singleton, Option.mem_some_iff] at hb
    subst ha hb
    exact hnow
  · simp only [List.length_append, List.length_singleton]
    omega
  · intro hread v hv
    rw [payload_append h.eight hlen, List.drop_append_of_le_length] at hv
    · rcases List.mem_append.mp hv with hv | hv
      · exact h.identifiers hread v hv
      · rcases hids with hids | hids
        · exact absurd (hids.symm.trans hread) (by decide)
        · exact hids v hv
    · rw [payload_length h.eight]
      have := h.eight_le
      omega

/-- What the gate keeps after a further frame. -/
theorem pending_advance {first o : Offer} {conts : List Offer} :
    (pending first conts).advance o.now =
      if firstLength first.data ≤ 6 + 7 * (conts ++ [o]).length then none
      else some (pending first (conts ++ [o])) := by
  unfold PacketContinuation.advance
  have hlen : (conts ++ [o]).length = conts.length + 1 := by simp
  by_cases hdone : firstLength first.data ≤ 6 + 7 * (conts ++ [o]).length
  · rw [if_pos hdone, if_pos]
    rw [hlen] at hdone
    simp only [pending]
    omega
  · rw [if_neg hdone, if_neg]
    · have hlast : ((first :: (conts ++ [o])).getLast (by simp)).now = o.now := by
        simp only [← List.cons_append, List.getLast_append_of_ne_nil _ (List.cons_ne_nil o []),
          List.getLast_singleton]
      simp only [pending, hlen, sequence_next, hlast, Option.some.injEq,
        PacketContinuation.mk.injEq, and_true]
      omega
    · rw [hlen] at hdone
      simp only [pending]
      omega

/-! ## What the frames on one identifier say -/

/-- A frame that stands alone, or the frames of one segmented request. -/
inductive Item where
  | single (o : Offer)
  | segmented (first : Offer) (conts : List Offer)

def Item.frames : Item → List Offer
  | .single o => [o]
  | .segmented first conts => first :: conts

def Item.profile : Item → Profile
  | .single o => o.profile
  | .segmented first _ => first.profile

def Item.Complete : Item → Prop
  | .single _ => True
  | .segmented first conts => firstLength first.data ≤ 6 + 7 * conts.length

/-- A lone frame is on the allowlist of its profile; only the engine is sent segmented requests. -/
def Item.Sound : Item → Prop
  | .single o => allowedForProfile o.controller o.tx o.profile
  | .segmented first conts => Transaction first conts

/-- The request that the receiver puts together, where there is one. -/
inductive Item.Request : Item → List UInt8 → Prop
  | single {o : Offer} {r : List UInt8} (h : singleRequest o.data = some r) : Request (.single o) r
  | segmented {first : Offer} {conts : List Offer} (h : Item.Complete (.segmented first conts)) :
      Request (.segmented first conts) (payload first conts)

theorem transaction_permitted {first : Offer} {conts : List Offer} (h : Transaction first conts)
    (hdone : firstLength first.data ≤ 6 + 7 * conts.length) :
    Permitted first.profile (payload first conts) := by
  have hlong := h.eight_le
  have hlen : (payload first conts).length = firstLength first.data := by
    rw [payload_length h.eight, Nat.min_eq_left hdone]
  have hcons := @payload_cons first conts (h.eight first (by simp)) (by omega)
  have hrest : ((payload first conts).drop 2).length = firstLength first.data - 2 := by
    rw [List.length_drop, hlen]
  have hids := h.identifiers
  rw [hcons]
  generalize (payload first conts).drop 2 = rest at hrest hids
  have hne : rest ≠ [] := fun hnil => by
    rw [hnil, List.length_nil] at hrest
    omega
  rcases h.kind with hread | hdef
  · have hids := hids hread
    simp only [opensRead, Bool.and_eq_true, beq_iff_eq, decide_eq_true_eq] at hread
    obtain ⟨⟨⟨⟨hservice, hrate⟩, -⟩, -⟩, -⟩ := hread
    rw [hservice]
    exact .read (.packets hrate (Or.inr hne) hids)
  · simp only [opensDefinition, Bool.and_eq_true, beq_iff_eq, decide_eq_true_eq] at hdef
    obtain ⟨⟨⟨⟨⟨hservice, hlow⟩, hhigh⟩, -⟩, -⟩, heven⟩ := hdef
    rw [hservice]
    exact .read (.definition ⟨hlow, hhigh⟩ hne (by omega))

theorem item_permitted {item : Item} {r : List UInt8} (hs : item.Sound) (hr : item.Request r) :
    Permitted item.profile r := by
  cases hr with
  | single h =>
    cases allowed_single hs with
    | wake _ _ hdata =>
      unfold Offer.data at h
      rw [hdata] at h
      cases h
    | flow offset ho hflow =>
      unfold Offer.data singleRequest at h
      simp only [← ho, hflow] at h
      cases h
    | request hr' hp => exact Option.some.inj (hr'.symm.trans h) ▸ hp
  | segmented h => exact transaction_permitted hs h

/-! ## Runs -/

/-- What has been let out, in order. -/
def admittedLog (offers : List Offer) : List Offer :=
  log CommandGate.offer CommandGate.admitted CommandGate.default offers

def onKey (key : Nat × UInt32) (sent : List Offer) : List Offer := sent.filter (·.key = key)

/-- The frames that have gone to the engine, and what the gate has kept of them. -/
inductive Follows : CommandGate → List Offer → Prop
  | idle {items : List Item} (hs : ∀ item ∈ items, item.Sound ∧ item.Complete) :
      Follows ⟨none⟩ (items.flatMap Item.frames)
  | within {items : List Item} {first : Offer} {conts : List Offer}
      (hs : ∀ item ∈ items, item.Sound ∧ item.Complete) (ht : Transaction first conts)
      (hmissing : 6 + 7 * conts.length < firstLength first.data) :
      Follows ⟨some (pending first conts)⟩ (items.flatMap Item.frames ++ first :: conts)

/-- An admitted frame of the engine begins a request, goes on with one or stands alone. -/
theorem follows_admission {g g' : CommandGate} {o : Offer} {pre : List Offer} (h : Follows g pre)
    (hkey : o.key = engineKey) (ha : Admission g o g') : Follows g' (pre ++ [o]) := by
  cases ha with
  | opens hidle _ hlen hpci hkind =>
    cases h with
    | within => cases hidle
    | idle hs =>
      have ht := transaction_open hkey hlen hpci hkind
      have hlong := ht.eight_le
      exact .within hs ht (by simp only [List.length_nil]; omega)
  | goesOn hp _ _ htakes =>
    cases h with
    | idle => cases hp
    | @within items first conts hs ht hmissing =>
      cases hp
      have hnext := ht.append hmissing hkey htakes
      rw [pending_advance, List.append_assoc, List.cons_append]
      split
      · next hdone =>
        have hitems : ∀ item ∈ items ++ [Item.segmented first (conts ++ [o])],
            item.Sound ∧ item.Complete := by
          simp only [List.forall_mem_append, List.forall_mem_singleton]
          exact ⟨hs, hnext, hdone⟩
        have hfollows := Follows.idle hitems
        rwa [List.flatMap_append, List.flatMap_singleton] at hfollows
      · next hmore => exact .within hs hnext (by omega)
  | single hidle hallowed =>
    cases h with
    | within => cases hidle hkey
    | @idle items hs =>
      have hitems : ∀ item ∈ items ++ [Item.single o], item.Sound ∧ item.Complete := by
        simp only [List.forall_mem_append, List.forall_mem_singleton]
        exact ⟨hs, hallowed, trivial⟩
      have hfollows := Follows.idle hitems
      rwa [List.flatMap_append, List.flatMap_singleton] at hfollows

/-- Frames for others than the engine are judged one by one and leave the gate alone. -/
theorem admission_other {g g' : CommandGate} {o : Offer} (hkey : o.key ≠ engineKey)
    (ha : Admission g o g') : g' = g ∧ allowedForProfile o.controller o.tx o.profile := by
  cases ha with
  | opens _ h => exact absurd h hkey
  | goesOn _ h => exact absurd h hkey
  | single _ h => exact ⟨rfl, h⟩

theorem follows_step (g : CommandGate) (o : Offer) (pre : List Offer) (h : Follows g pre) :
    Follows (g.offer o) (pre ++ onKey engineKey (g.admitted o)) := by
  unfold CommandGate.admitted onKey
  rcases offer_cases g o with ⟨hno, hsame⟩ | ⟨hyes, ha⟩
  · simpa [hno, hsame] using h
  · by_cases hkey : o.key = engineKey
    · simpa [hyes, hkey] using follows_admission h hkey ha
    · simpa [hyes, hkey, (admission_other hkey ha).1] using h

theorem admitted_other (g : CommandGate) (o o' : Offer) (ho : o' ∈ g.admitted o)
    (hkey : o'.key ≠ engineKey) : allowedForProfile o'.controller o'.tx o'.profile := by
  unfold CommandGate.admitted at ho
  rcases offer_cases g o with ⟨hno, -⟩ | ⟨hyes, ha⟩
  · simp [hno] at ho
  · rw [if_pos hyes, List.mem_singleton] at ho
    subst ho
    exact (admission_other hkey ha).2

theorem engine_items (offers : List Offer) : ∃ items : List Item,
    onKey engineKey (admittedLog offers) = items.flatMap Item.frames ∧
      (∀ item ∈ items, item.Sound) ∧ ∀ item ∈ items.dropLast, item.Complete := by
  have hnone : Follows CommandGate.default [] := @Follows.idle [] (by simp)
  have hrun := log_keeps (R := Follows) follows_step offers hnone
  rw [List.nil_append, ← log_hom (f := onKey engineKey) (by rfl)
    (fun xs ys => List.filter_append xs ys)] at hrun
  change Follows _ (onKey engineKey (admittedLog offers)) at hrun
  generalize run CommandGate.offer CommandGate.default offers = g at hrun
  generalize onKey engineKey (admittedLog offers) = sent at hrun
  cases hrun with
  | @idle items hs =>
    exact ⟨items, rfl, fun item h => (hs item h).1,
      fun item h => (hs item (List.dropLast_subset _ h)).2⟩
  | @within items first conts hs ht =>
    refine ⟨items ++ [.segmented first conts], ?_, ?_, ?_⟩
    · rw [List.flatMap_append, List.flatMap_singleton]
      rfl
    · simp only [List.forall_mem_append, List.forall_mem_singleton]
      exact ⟨fun item h => (hs item h).1, ht⟩
    · rw [List.dropLast_concat]
      exact fun item h => (hs item h).2

theorem other_items (offers : List Offer) {key : Nat × UInt32} (hkey : key ≠ engineKey) :
    ∀ o ∈ onKey key (admittedLog offers), allowedForProfile o.controller o.tx o.profile := by
  intro o ho
  have hmem := List.mem_filter.mp ho
  have hall := @forall_mem_log _ _ _ CommandGate.offer CommandGate.admitted
    (fun o => o.key ≠ engineKey → allowedForProfile o.controller o.tx o.profile)
    (fun g o o' ho' h => admitted_other g o o' ho' h) CommandGate.default offers o hmem.1
  exact hall fun h => hkey ((of_decide_eq_true hmem.2).symm.trans h)

/-- What goes out on one identifier is a list of permitted requests, of which only the last may be
unfinished, and a refusal changes nothing. -/
theorem gate_sound (offers : List Offer) (key : Nat × UInt32) :
    (∃ items : List Item,
      onKey key (admittedLog offers) = items.flatMap Item.frames ∧
      (∀ item ∈ items, item.Sound) ∧
      (∀ item ∈ items.dropLast, item.Complete) ∧
      (key ≠ engineKey → ∀ item ∈ items, ∃ o, item = .single o) ∧
      (∀ item ∈ items, ∀ o, item = .single o → Single o.controller o.tx o.profile) ∧
      ∀ item ∈ items, ∀ r, item.Request r →
        Permitted item.profile r ∧ Harmless item.profile r) ∧
    ∀ (g : CommandGate) (o : Offer), g.admits o = false → g.offer o = g := by
  refine ⟨?_, fun g o hno => ?_⟩
  · obtain ⟨items, hframes, hsound, hcomplete, hsingle⟩ : ∃ items : List Item,
        onKey key (admittedLog offers) = items.flatMap Item.frames ∧ (∀ item ∈ items, item.Sound) ∧
        (∀ item ∈ items.dropLast, item.Complete) ∧
        (key ≠ engineKey → ∀ item ∈ items, ∃ o, item = .single o) := by
      by_cases hkey : key = engineKey
      · subst hkey
        obtain ⟨items, hframes, hsound, hcomplete⟩ := engine_items offers
        exact ⟨items, hframes, hsound, hcomplete, fun h => absurd rfl h⟩
      · have hlone := other_items offers hkey
        generalize onKey key (admittedLog offers) = sent at hlone
        refine ⟨sent.map .single, ?_, ?_, ?_, fun _ => ?_⟩
        · rw [List.flatMap_map]
          exact (List.flatMap_singleton' sent).symm
        · simpa [Item.Sound] using hlone
        · intro item h
          obtain ⟨o, -, rfl⟩ := List.mem_map.mp (List.dropLast_subset _ h)
          trivial
        · intro item h
          obtain ⟨o, -, rfl⟩ := List.mem_map.mp h
          exact ⟨o, rfl⟩
    refine ⟨items, hframes, hsound, hcomplete, hsingle, ?_, ?_⟩
    · rintro item hitem o rfl
      exact allowed_single (hsound _ hitem)
    · intro item hitem r hr
      have hp := item_permitted (hsound item hitem) hr
      exact ⟨hp, permitted_harmless hp⟩
  · exact allowed_refused hno

end OpenSaab.Policy
