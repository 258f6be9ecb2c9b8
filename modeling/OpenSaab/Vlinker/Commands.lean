import OpenSaab.Text

/-!
# Commands and adapters of the host workflow

`vlinker.rs`, `adapter_identity.rs` and `adapters/`: what the host sends to a Bluetooth adapter, and
what it knows of the adapters that it supports.
-/

namespace OpenSaab.Text

/-! ## Text -/

/-- The text without its white space. -/
def compact (s : List Char) : List Char := s.filter fun c => !whitespace c

def asciiUppercase (s : List Char) : List Char := s.map Char.toUpper

def eqIgnoreAsciiCase (s t : List Char) : Bool := asciiUppercase s == asciiUppercase t

def containsText (token : List Char) : List Char → Bool
  | [] => token.isEmpty
  | c :: cs => token.isPrefixOf (c :: cs) || containsText token cs

end OpenSaab.Text

namespace OpenSaab.Vlinker

open Text

/-! ## Commands -/

/-- The identifiers that `INFO_READS` reads. -/
inductive InfoRead where
  | software
  | hardware
  | description
  | codefile
  | calibration
  | softwareVersion
  | partNumber
  deriving DecidableEq, Repr

namespace InfoRead

def all : List InfoRead :=
  [software, hardware, description, codefile, calibration, softwareVersion, partNumber]

def request : InfoRead → String
  | software => "021A080000000000"
  | hardware => "021A710000000000"
  | description => "021A720000000000"
  | codefile => "021A730000000000"
  | calibration => "021A740000000000"
  | softwareVersion => "021A950000000000"
  | partNumber => "021A7C0000000000"

def pid : InfoRead → UInt8
  | software => 0x08
  | hardware => 0x71
  | description => 0x72
  | codefile => 0x73
  | calibration => 0x74
  | softwareVersion => 0x95
  | partNumber => 0x7c

def label : InfoRead → String
  | software => "ECM software"
  | hardware => "ECM hardware"
  | description => "ECM description"
  | codefile => "Codefile version"
  | calibration => "Calibration set"
  | softwareVersion => "ECM software version ID"
  | partNumber => "Saab part number"

end InfoRead

/-- Every command that a session can send. -/
inductive Command where
  | atz | ate0 | vti | vtvers | atrv | atsp6 | vtpron | vtpbrd | vtswgp | vtsetHd | vtsetCanFc
  | vinRequest | vtpc
  | info (read : InfoRead)
  | atcfc0 | atcf5e8 | atcm5ff | atstff | sessionStart | dtcRead | sessionStop
  | stdi | sti | stpr | stpbrr | atl0 | ats1 | ath1 | atd0 | atcaf0 | atcfc1 | atat0 | atst32 | atsh7e0
  | atcra7e8 | atfcsh7e0 | atfcsd300000 | atfcsm1 | stpc
  deriving DecidableEq, Repr

namespace Command

def text : Command → String
  | atz => "ATZ"
  | ate0 => "ATE0"
  | vti => "VTI"
  | vtvers => "VTVERS"
  | atrv => "ATRV"
  | atsp6 => "ATSP6"
  | vtpron => "VTPRON"
  | vtpbrd => "VTPBRD"
  | vtswgp => "VTSWGP CAF0,CFC1,H1,S1,D0,L0,AT0,GR0"
  | vtsetHd => "VTSET_HD 7E0,7E8,FF"
  | vtsetCanFc => "VTSET_CAN_FC 300000,1,7E0"
  | vinRequest => "021A900000000000"
  | vtpc => "VTPC"
  | info read => read.request
  | atcfc0 => "ATCFC0"
  | atcf5e8 => "ATCF5E8"
  | atcm5ff => "ATCM5FF"
  | atstff => "ATSTFF"
  | sessionStart => "0210020000000000"
  | dtcRead => "03A9811200000000"
  | sessionStop => "0120000000000000"
  | stdi => "STDI"
  | sti => "STI"
  | stpr => "STPR"
  | stpbrr => "STPBRR"
  | atl0 => "ATL0"
  | ats1 => "ATS1"
  | ath1 => "ATH1"
  | atd0 => "ATD0"
  | atcaf0 => "ATCAF0"
  | atcfc1 => "ATCFC1"
  | atat0 => "ATAT0"
  | atst32 => "ATST32"
  | atsh7e0 => "ATSH7E0"
  | atcra7e8 => "ATCRA7E8"
  | atfcsh7e0 => "ATFCSH7E0"
  | atfcsd300000 => "ATFCSD300000"
  | atfcsm1 => "ATFCSM1"
  | stpc => "STPC"

/-- `vehicle_command`: what goes on to the vehicle. -/
def vehicle : Command → Bool
  | vinRequest | info _ | sessionStart | dtcRead | sessionStop => true
  | _ => false

end Command

open Command

/-- `adapters::mic::STARTUP`. -/
def micStartup : List Command :=
  [atz, ate0, vti, vtvers, atrv, atsp6, vtpron, vtpbrd, vtswgp, vtsetHd, vtsetCanFc, vinRequest, vtpc]

/-- `adapters::obdlink_mxp::STARTUP`. -/
def obdlinkStartup : List Command :=
  [atz, ate0, stdi, sti, atrv, atsp6, stpr, stpbrr, atl0, ats1, ath1, atd0, atcaf0, atcfc1, atat0,
    atst32, atsh7e0, atcra7e8, atfcsh7e0, atfcsd300000, atfcsm1, vinRequest, stpc]

/-- The commands of a report of the engine codes. -/
def dtcCommands : List Command :=
  [atcfc0, atcf5e8, atcm5ff, atstff, sessionStart, dtcRead, sessionStop]

def infoCommands : List Command := InfoRead.all.map info

/-! ## Adapters -/

structure Profile where
  id : String
  label : String
  vinProfile : String
  infoProfile : String
  dtcProfile : String
  startup : List Command
  matchesProduct : List Char → Bool
  vinFirmware : List Char → Bool
  probeFirmware : List Char → Bool

def productMatches (product : List Char) (start : String) (allowPlus : Bool) : Bool :=
  let upper := asciiUppercase (trim product)
  if start.toList.isPrefixOf upper then
    let rest := upper.drop start.toList.length
    rest.isEmpty || rest.head?.any whitespace ||
      allowPlus && (rest == ['+'] || ['+', ' '].isPrefixOf rest)
  else false

def firmwareHasToken (firmware : List Char) (allowed : List String) : Bool :=
  ((asciiUppercase firmware).splitOnP fun c => !c.isAlphanum).any fun token =>
    allowed.any (·.toList == token)

def vlinkerMcPlus : Profile where
  id := "vlinker_mc_plus"
  label := "vLinker MC+"
  vinProfile := "vlinker_mc_mic_hscan_vin_v1"
  infoProfile := "vlinker_mc_mic_hscan_ecm_info_v1"
  dtcProfile := "vlinker_mc_mic_hscan_ecm_dtc_v1"
  startup := micStartup
  matchesProduct := (productMatches · "VLINKER MC" true)
  vinFirmware := (firmwareHasToken · ["MIC3313", "MIC331X", "MIC3X1X"])
  probeFirmware := (firmwareHasToken · ["MIC3313", "MIC331X", "MIC3X1X"])

def caristaEvo : Profile where
  id := "carista_evo"
  label := "Carista EVO"
  vinProfile := "carista_evo_mic3413_hscan_vin_v1"
  infoProfile := "carista_evo_mic3413_hscan_ecm_info_v1"
  dtcProfile := "carista_evo_mic3413_hscan_ecm_dtc_v1"
  startup := micStartup
  matchesProduct := (productMatches · "CARISTA EVO" false)
  vinFirmware := (firmwareHasToken · ["MIC3413"])
  probeFirmware firmware := eqIgnoreAsciiCase (trim firmware) "MIC3413 V2.0.84".toList

def obdlinkMxp : Profile where
  id := "obdlink_mxp"
  label := "OBDLink MX+"
  vinProfile := "obdlink_mxp_stn2255_hscan_vin_v1"
  infoProfile := "obdlink_mxp_stn2255_hscan_ecm_info_v1"
  dtcProfile := "obdlink_mxp_stn2255_hscan_ecm_dtc_v1"
  startup := obdlinkStartup
  matchesProduct := (productMatches · "OBDLINK MX+" false)
  vinFirmware := (· == "STN2255 v5.12.4".toList)
  probeFirmware := (· == "STN2255 v5.12.4".toList)

inductive Model where
  | vlinkerMcPlus
  | caristaEvo
  | obdlinkMxp
  deriving DecidableEq, Repr

namespace Model

def profile : Model → Profile
  | vlinkerMcPlus => Vlinker.vlinkerMcPlus
  | caristaEvo => Vlinker.caristaEvo
  | obdlinkMxp => Vlinker.obdlinkMxp

def fromProduct (product : List Char) : Except String Model :=
  match [vlinkerMcPlus, caristaEvo, obdlinkMxp].find? fun m => m.profile.matchesProduct product with
  | some m => .ok m
  | none => .error ("Unsupported Bluetooth adapter identity: " ++ String.ofList product)

example : (fromProduct "vLinker MC+ v2.2.92".toList).toOption = some vlinkerMcPlus ∧
    (fromProduct "Carista EVOLUTION".toList).toOption = none := by decide +kernel

def probeProfileId (m : Model) (codes : Bool) : String :=
  if codes then m.profile.dtcProfile else m.profile.infoProfile

end Model

end OpenSaab.Vlinker
