import OpenSaab.Text

/-!
# GM diagnostic reports

`gm.rs`: the collector of the records that an ECU sends after an `A9 81` request.
-/

namespace OpenSaab.Translation

open Text

structure Dtc where
  code : String
  failureType : UInt8
  status : UInt8
  deriving DecidableEq, Repr

/-- `{}{}{:X}{:02X}` of the system letter and the digits. -/
def dtcCode (a b : UInt8) : String :=
  String.ofList
      ["PCBU".toList.getD (a >>> 6).toNat 'P', hexDigit true (a >>> 4 &&& 3).toNat,
        hexDigit true (a &&& 15).toNat] ++
    hexUpper b

theorem dtcCode_toList (a b : UInt8) :
    (dtcCode a b).toList =
      ["PCBU".toList.getD (a.toNat / 64) 'P', hexDigit true (a.toNat / 16 % 4),
        hexDigit true (a.toNat % 16), hexDigit true (b.toNat / 16), hexDigit true (b.toNat % 16)] := by
  have hsystem : (a >>> 6).toNat = a.toNat / 64 := by
    rw [UInt8.toNat_shiftRight, Nat.shiftRight_eq_div_pow]
    rfl
  have hdigit : (a >>> 4 &&& 3).toNat = a.toNat / 16 % 4 := by
    rw [UInt8.toNat_and, UInt8.toNat_shiftRight, Nat.shiftRight_eq_div_pow]
    exact Nat.and_two_pow_sub_one_eq_mod _ 2
  have hlow : (a &&& 15).toNat = a.toNat % 16 := by
    rw [UInt8.toNat_and]
    exact Nat.and_two_pow_sub_one_eq_mod _ 4
  unfold dtcCode
  rw [String.toList_append, hexUpper_toList, String.toList_ofList, hsystem, hdigit, hlow]
  rfl

/-- A code shows both of its bytes. -/
theorem dtcCode_inj {a b a' b' : UInt8} (h : dtcCode a b = dtcCode a' b') : a = a' ∧ b = b' := by
  have hlist := congrArg String.toList h
  rw [dtcCode_toList, dtcCode_toList] at hlist
  simp only [List.cons.injEq, and_true] at hlist
  obtain ⟨hsystem, hdigit, hlow, hhigh, hlast⟩ := hlist
  have ha := a.toNat_lt
  have ha' := a'.toNat_lt
  have hb := b.toNat_lt
  have hb' := b'.toNat_lt
  have hletter : ∀ m n : Fin 4,
      "PCBU".toList.getD m 'P' = "PCBU".toList.getD n 'P' → m = n := by decide
  have hsystem' : a.toNat / 64 = a'.toNat / 64 :=
    Fin.mk.inj_iff.mp (hletter ⟨a.toNat / 64, by omega⟩ ⟨a'.toNat / 64, by omega⟩ hsystem)
  have hdigit' := hexDigit_inj (by omega) (by omega) hdigit
  have hlow' := hexDigit_inj (by omega) (by omega) hlow
  have hhigh' := hexDigit_inj (by omega) (by omega) hhigh
  have hlast' := hexDigit_inj (by omega) (by omega) hlast
  rw [← UInt8.toNat_inj, ← UInt8.toNat_inj]
  omega

structure Report where
  records : List Dtc
  complete : Bool
  failed : Bool
  limit : Nat
  deriving DecidableEq, Repr

namespace Report

def new (limit : Nat) : Except String Report :=
  if limit < 1 ∨ 2048 < limit then .error "GM record limit must be 1..2048"
  else .ok { records := [], complete := false, failed := false, limit }

/-- `Report::default`. -/
def default : Report := { records := [], complete := false, failed := false, limit := 128 }

example : new 128 = .ok default := rfl

def isComplete (r : Report) : Bool := r.complete && !r.failed

/-- The start of a negative reply to the request. -/
def refusal : List UInt8 := [3, 0x7f, 0xa9]

def consumeReply (r : Report) (data : List UInt8) : Except String Report :=
  match data[3]? with
  | none => .error "Truncated DTC negative response"
  | some nrc =>
    if nrc = 0x78 then .ok r else .error ("DTC request rejected: NRC " ++ hexUpper nrc)

/-- The status byte of an end marker. -/
def validEnd (report : UInt32) (status : UInt8) : Bool :=
  if report = 0x541 then status == 0xff || status == 0x17 else status == 0xff

def consumeRecord (r : Report) (report : UInt32) (data : List UInt8) : Except String Report :=
  if data.length < 5 ∨ 8 < data.length then .error "Invalid DTC record length"
  else if (data.drop 1).take 3 = [0, 0, 0] then
    if validEnd report (data.getD 4 0) then .ok { r with complete := true }
    else .error "Invalid DTC report end marker"
  else if r.limit ≤ r.records.length then
    .error ("DTC report exceeds " ++ toString r.limit ++ " records")
  else
    .ok
      { r with
        records := r.records ++
          [{ code := dtcCode (data.getD 1 0) (data.getD 2 0), failureType := data.getD 3 0
             status := data.getD 4 0 }] }

def consume (r : Report) (id : UInt32) (data : List UInt8) (reply report : UInt32) :
    Except String Report :=
  if id = reply ∧ refusal.isPrefixOf data then r.consumeReply data
  else if id ≠ report ∨ data.head? ≠ some 0x81 then .ok r
  else r.consumeRecord report data

def receiveForIds (r : Report) (id : UInt32) (data : List UInt8) (reply report : UInt32) :
    Except String Unit × Report :=
  if r.failed ∨ r.complete then (.error "Traffic supplied after end or failure of DTC report", r)
  else
    match r.consume id data reply report with
    | .error e => (.error e, { r with failed := true })
    | .ok r => (.ok (), r)

def receive (r : Report) (id : UInt32) (data : List UInt8) : Except String Unit × Report :=
  r.receiveForIds id data 0x7e8 0x5e8

def finish (r : Report) : Except String (List Dtc) :=
  if r.failed ∨ ¬ r.complete then .error "Incomplete DTC report: failure or no end marker"
  else .ok r.records

end Report

end OpenSaab.Translation
