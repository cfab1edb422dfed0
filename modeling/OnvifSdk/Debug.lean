import OnvifSdk.Gsoap.Context

namespace OnvifSdk

open Lib Program Gsoap

inductive LogVal
  | pos (null : Bool)
  | int (val : ℤ)
  | str (val : Ptr CStr)
  | strp (val : Ptr (Ptr CStr))
  | float (val : UInt32)
  | bool (val : Ptr Bool)
  | int64
  deriving DecidableEq

inductive LogLine
  | val (level : ℕ) (prestr : String) (val : LogVal)
  | fmt (level : ℕ) (text : String)
  deriving DecidableEq

-- The argument of the second `%s` of `log_val`, where the format has one.
def LogVal.string : LogVal → Option (Ptr CStr)
  | .str (some s) => some (some s)
  | .strp (some s) => some s
  | .bool (some b) => some (some (.lit (if b then "true" else "false")))
  | _ => none

theorem LogVal.string_eq_null_iff {v : LogVal} : v.string = some none ↔ v = .strp (some none) := by
  cases v with
  | str p => cases p <;> simp [LogVal.string]
  | strp p => cases p <;> simp [LogVal.string]
  | bool p => cases p <;> simp [LogVal.string]
  | _ => simp [LogVal.string]

/-- No `%s` is handed NULL, which C leaves undefined. -/
def LogLine.Shown : LogLine → Prop
  | .val _ _ v => v.string ≠ some none
  | .fmt _ _ => True

@[simp] theorem LogLine.shown_val (level : ℕ) (prestr : String) (v : LogVal) :
    (LogLine.val level prestr v).Shown ↔ v ≠ .strp (some none) :=
  not_congr LogVal.string_eq_null_iff

@[simp] theorem LogLine.shown_fmt (level : ℕ) (text : String) : (LogLine.fmt level text).Shown := trivial

abbrev Dump := Outcome (List LogLine)

namespace Dump

def seq : List Dump → Dump
  | [] => .ok []
  | d :: ds => do
    let lines ← d
    let rest ← seq ds
    return lines ++ rest

def Ends (d : Dump) : Prop := ∃ lines, d = .ok lines

/-- The dump ends, and all of its lines satisfy `P`. -/
def Prints (P : LogLine → Prop) (d : Dump) : Prop := ∃ lines, d = .ok lines ∧ ∀ l ∈ lines, P l

variable {P : LogLine → Prop}

theorem Prints.ends {d : Dump} (h : Prints P d) : Ends d := by
  obtain ⟨lines, hd, _⟩ := h
  exact ⟨lines, hd⟩

theorem ends_iff_prints {d : Dump} : Ends d ↔ Prints (fun _ => True) d := by
  simp [Ends, Prints]

@[simp] theorem prints_ok {lines : List LogLine} : Prints P (.ok lines) ↔ ∀ l ∈ lines, P l := by
  simp [Prints]

@[simp] theorem prints_error (e : Fault) : ¬ Prints P (.error e) := nofun

@[simp] theorem prints_nil : Prints P (seq []) := prints_ok.mpr (by simp)

@[simp] theorem prints_cons {d : Dump} {ds : List Dump} :
    Prints P (seq (d :: ds)) ↔ Prints P d ∧ Prints P (seq ds) := by
  cases d with
  | error e => exact ⟨fun h => absurd h (prints_error e), fun h => absurd h.1 (prints_error e)⟩
  | ok a =>
    cases hs : seq ds with
    | error e =>
      have hd : seq (.ok a :: ds) = .error e := by rw [seq, hs]; rfl
      simp [hd]
    | ok b =>
      have hd : seq (.ok a :: ds) = .ok (a ++ b) := by rw [seq, hs]; rfl
      simp [hd, or_imp, forall_and]

theorem prints_seq {ds : List Dump} : Prints P (seq ds) ↔ ∀ d ∈ ds, Prints P d := by
  induction ds with
  | nil => simp
  | cons d ds ih => simp [ih]

def logLevelVal (level : ℕ) (prestr : String) (val : LogVal) : Dump := .ok [.val level prestr val]

def logVal (prestr : String) (val : LogVal) : Dump := logLevelVal 0 prestr val

def logLevelFmt (level : ℕ) (text : String) : Dump := .ok [.fmt level text]

def unlessNull {α : Type} (p : Ptr α) (f : α → Dump) : Dump :=
  match p with
  | none => .ok []
  | some a => f a

/-- What follows `assert(NULL != p)`. -/
def asserted {α : Type} (p : Ptr α) (f : α → Dump) : Dump :=
  match p with
  | none => .error .assertion
  | some a => f a

def each {α : Type} (a : DynArray α) (f : ℕ → α → Dump) : Dump :=
  seq ((List.range a.size.toNat).map fun i => a.read i >>= f i)

@[simp] theorem prints_val {level : ℕ} {prestr : String} {val : LogVal} :
    Prints P (logLevelVal level prestr val) ↔ P (.val level prestr val) := by
  simp [logLevelVal]

@[simp] theorem prints_logVal {prestr : String} {val : LogVal} :
    Prints P (logVal prestr val) ↔ P (.val 0 prestr val) := prints_val

@[simp] theorem prints_fmt {level : ℕ} {text : String} :
    Prints P (logLevelFmt level text) ↔ P (.fmt level text) := by
  simp [logLevelFmt]

@[simp] theorem prints_unlessNull {α : Type} {p : Ptr α} {f : α → Dump} :
    Prints P (unlessNull p f) ↔ ∀ a, p = some a → Prints P (f a) := by
  cases p <;> simp [unlessNull]

@[simp] theorem prints_asserted {α : Type} {p : Ptr α} {f : α → Dump} :
    Prints P (asserted p f) ↔ ∃ a, p = some a ∧ Prints P (f a) := by
  cases p <;> simp [asserted]

@[simp] theorem prints_each {α : Type} {a : DynArray α} {f : ℕ → α → Dump} :
    Prints P (each a f) ↔ ∀ i x, a.elems[i]? = some x → Prints P (f i x) := by
  have hread {i : ℕ} {x : α} (hx : a.elems[i]? = some x) : (a.read i >>= f i) = f i x := by
    rw [DynArray.read, hx]
    rfl
  simp only [each, prints_seq, List.forall_mem_map, List.mem_range, DynArray.size, Int.toNat_natCast]
  constructor
  · intro h i x hx
    rw [← hread hx]
    exact h i (List.getElem?_eq_some_iff.mp hx).1
  · intro h i hi
    rw [hread (List.getElem?_eq_getElem hi)]
    exact h i _ (List.getElem?_eq_getElem hi)

end Dump

open Dump

def pos {α : Type} (p : Ptr α) : LogVal := .pos p.isNone

def dumpEnum2strVideoEncoding : TtVideoEncoding → String
  | .jpeg => "JPEG"
  | .mpeg4 => "MPEG4"
  | .h264 => "H264"
  | .other _ _ => "unknown"

def dumpEnum2strAudioEncoding : TtAudioEncoding → String
  | .g711 => "G711"
  | .g726 => "G726"
  | .aac => "AAC"
  | .other _ _ => "unknown"

def dumpEnum2strH264Profile : TtH264Profile → String
  | .baseline => "Baseline"
  | .main => "Main"
  | .extended => "Extended"
  | .high => "High"
  | .other _ _ => "unknown"

def logLevelStructTtIntRange (level : ℕ) (range : Ptr TtIntRange) : Dump :=
  unlessNull range fun range => seq [
    logLevelVal level "Min: " (.int range.min),
    logLevelVal level "Max: " (.int range.max)]

theorem logLevelStructTtIntRange_prints (level : ℕ) (range : Ptr TtIntRange) :
    Prints LogLine.Shown (logLevelStructTtIntRange level range) := by
  simp [logLevelStructTtIntRange]

def logLevelReferences (level : ℕ) (p : Ptr WsaReferencesType) : Dump :=
  unlessNull p fun p => seq [
    logLevelVal (level + 1) "__size: " (.int p.any.size),
    logLevelVal (level + 1) "__any: " (.pos p.any.elems.isEmpty),
    each p.any fun _ s => logLevelVal (level + 2) "" (.str s)]

def logLevelStructWsaEndpointReferenceType (level : ℕ) (a : WsaEndpointReferenceType) : Dump := seq [
  logLevelVal level "Address: " (.str a.address),
  logLevelVal level "ReferenceProperties: " (pos a.referenceProperties),
  logLevelReferences level a.referenceProperties,
  logLevelVal level "ReferenceParameters: " (pos a.referenceParameters),
  logLevelReferences level a.referenceParameters,
  logLevelVal level "PortType: " (.strp a.portType),
  logLevelVal level "ServiceName: " (pos a.serviceName),
  unlessNull a.serviceName fun s => seq [
    logLevelVal (level + 1) "ServiceName: " (.str s.item),
    logLevelVal (level + 1) "PortName: " (.str s.portName),
    logLevelVal (level + 1) "__anyAttribute: " (.str s.anyAttribute)],
  logLevelVal level "__size: " (.int a.any.size),
  logLevelVal level "__any: " (.pos a.any.elems.isEmpty),
  each a.any fun _ s => logLevelVal (level + 1) "" (.str s),
  logLevelVal level "__anyAttribute: " (.str a.anyAttribute)]

theorem logLevelReferences_prints (level : ℕ) (p : Ptr WsaReferencesType) :
    Prints LogLine.Shown (logLevelReferences level p) := by
  simp [logLevelReferences]

theorem logLevelStructWsaEndpointReferenceType_prints {level : ℕ} {a : WsaEndpointReferenceType} :
    Prints LogLine.Shown (logLevelStructWsaEndpointReferenceType level a) ↔ a.portType ≠ some none := by
  simp [logLevelStructWsaEndpointReferenceType, logLevelReferences_prints, pos]

def dumpWsddProbeMatches (rep : WsddProbeMatches) : Dump := seq [
  logLevelVal 0 "wsdd__ProbeMatches: " (pos rep.wsddProbeMatches),
  unlessNull rep.wsddProbeMatches fun p => seq [
    logLevelVal 1 "__sizeProbeMatch: " (.int p.probeMatch.size),
    logLevelVal 1 "ProbeMatch: " (.pos false),
    each p.probeMatch fun i probeMatch => seq [
      logLevelFmt 2 (toString i ++ "\n"),
      logLevelVal 3 "wsa__EndpointReference: " (.pos false),
      logLevelStructWsaEndpointReferenceType 4 probeMatch.wsaEndpointReference,
      logLevelVal 3 "Types: " (.str probeMatch.types),
      logLevelVal 3 "Scopes: " (pos probeMatch.scopes),
      unlessNull probeMatch.scopes fun s => seq [
        logLevelVal 4 "__item: " (.str s.item),
        logLevelVal 4 "MatchBy: " (.str s.matchBy)],
      logLevelVal 3 "XAddrs: " (.str probeMatch.xAddrs),
      logLevelVal 3 "MetadataVersion: " (.int probeMatch.metadataVersion.toNat)]]]

theorem dumpWsddProbeMatches_ends (rep : WsddProbeMatches) : Ends (dumpWsddProbeMatches rep) := by
  simp [ends_iff_prints, dumpWsddProbeMatches, logLevelStructWsaEndpointReferenceType, logLevelReferences]

theorem dumpWsddProbeMatches_prints {rep : WsddProbeMatches} :
    Prints LogLine.Shown (dumpWsddProbeMatches rep) ↔ ∀ p, rep.wsddProbeMatches = some p →
      ∀ m ∈ p.probeMatch.elems, m.wsaEndpointReference.portType ≠ some none := by
  have hmem {Q : WsddProbeMatchType → Prop} {ms : List WsddProbeMatchType} :
      (∀ (i : ℕ) m, ms[i]? = some m → Q m) ↔ ∀ m ∈ ms, Q m := by
    simp only [List.mem_iff_getElem?]
    exact ⟨fun h m ⟨i, hm⟩ => h i m hm, fun h i m hm => h m ⟨i, hm⟩⟩
  simp [dumpWsddProbeMatches, logLevelStructWsaEndpointReferenceType_prints, pos, hmem]

def dumpTdsGetDeviceInformationResponse (rep : TdsGetDeviceInformationResponse) : Dump := seq [
  logVal "Manufacturer:       " (.str rep.manufacturer),
  logVal "Model:              " (.str rep.model),
  logVal "Serial Number:      " (.str rep.serialNumber),
  logVal "Hardware Id:        " (.str rep.hardwareId),
  logVal "Firmware Version:   " (.str rep.firmwareVersion)]

theorem dumpTdsGetDeviceInformationResponse_prints (rep : TdsGetDeviceInformationResponse) :
    Prints LogLine.Shown (dumpTdsGetDeviceInformationResponse rep) := by
  simp [dumpTdsGetDeviceInformationResponse]

-- The conversion `%0<width>d`.
def padded (width : ℕ) (n : ℤ) : String :=
  let sign := if n < 0 then "-" else ""
  let digits := toString n.natAbs
  sign ++ String.ofList (List.replicate (width - sign.length - digits.length) '0') ++ digits

def logTimeZone (prestr : String) (p : Ptr TtTimeZone) : Dump :=
  match p with
  | none => logVal prestr (.pos true)
  | some timeZone => logVal prestr (.str timeZone.tz)

def logDateTime (prestr : String) (p : Ptr TtDateTime) : Dump :=
  match p with
  | none => logVal prestr (.pos true)
  | some dateTime =>
    asserted dateTime.date fun date => asserted dateTime.time fun time =>
      logLevelFmt 0 (prestr ++ padded 4 date.year ++ "-" ++ padded 2 date.month ++ "-" ++
        padded 2 date.day ++ " " ++ padded 2 time.hour ++ ":" ++ padded 2 time.minute ++ ":" ++
        padded 2 time.second ++ " \n")

theorem logTimeZone_prints (prestr : String) (p : Ptr TtTimeZone) :
    Prints LogLine.Shown (logTimeZone prestr p) := by
  cases p <;> simp [logTimeZone]

def Dated (d : TtDateTime) : Prop := d.date ≠ none ∧ d.time ≠ none

theorem logDateTime_prints {prestr : String} {p : Ptr TtDateTime} :
    Prints LogLine.Shown (logDateTime prestr p) ↔ ∀ d, p = some d → Dated d := by
  cases p with
  | none => simp [logDateTime]
  | some d => simp [logDateTime, Dated, Option.ne_none_iff_exists']

def dumpTdsGetSystemDateAndTime (rep : TdsGetSystemDateAndTimeResponse) : Dump :=
  asserted rep.systemDateAndTime fun systm => seq [
    logVal "DateTimeType:      " (.int systm.dateTimeType.toInt),
    logVal "DaylightSavings:   " (.int systm.daylightSavings.toInt),
    logTimeZone "TimeZone:          " systm.timeZone,
    logDateTime "UTCDateTime:       " systm.utcDateTime,
    logDateTime "LocalDateTime:     " systm.localDateTime]

theorem dumpTdsGetSystemDateAndTime_prints {rep : TdsGetSystemDateAndTimeResponse} :
    Prints LogLine.Shown (dumpTdsGetSystemDateAndTime rep) ↔
      ∃ systm, rep.systemDateAndTime = some systm ∧
        (∀ d, systm.utcDateTime = some d → Dated d) ∧
        (∀ d, systm.localDateTime = some d → Dated d) := by
  simp [dumpTdsGetSystemDateAndTime, logTimeZone_prints, logDateTime_prints]

def logXAddr (level : ℕ) (prestr : String) (p : Ptr TtXAddrCapabilities) : Dump := seq [
  logLevelVal level prestr (pos p),
  unlessNull p fun p => logLevelVal (level + 1) "XAddr: " (.str p.xAddr)]

theorem logXAddr_prints (level : ℕ) (prestr : String) (p : Ptr TtXAddrCapabilities) :
    Prints LogLine.Shown (logXAddr level prestr p) := by
  simp [logXAddr, pos]

def dumpTdsGetCapabilitiesResponse (rep : TdsGetCapabilitiesResponse) : Dump := seq [
  logLevelVal 0 "Capabilities: " (pos rep.capabilities),
  unlessNull rep.capabilities fun c => seq [
    logXAddr 1 "Analytics: " c.analytics,
    logXAddr 1 "Device: " c.device,
    logXAddr 1 "Events: " c.events,
    logXAddr 1 "Imaging: " c.imaging,
    logXAddr 1 "Media: " c.media,
    logXAddr 1 "PTZ: " c.ptz,
    logLevelVal 1 "Extension: " (pos c.extension),
    unlessNull c.extension fun e => seq [
      logXAddr 2 "DeviceIO: " e.deviceIO,
      logXAddr 2 "Display: " e.display,
      logXAddr 2 "Recording: " e.recording,
      logXAddr 2 "Search: " e.search,
      logXAddr 2 "Replay: " e.replay,
      logXAddr 2 "Receiver: " e.receiver,
      logXAddr 2 "AnalyticsDevice: " e.analyticsDevice]]]

theorem dumpTdsGetCapabilitiesResponse_prints (rep : TdsGetCapabilitiesResponse) :
    Prints LogLine.Shown (dumpTdsGetCapabilitiesResponse rep) := by
  simp [dumpTdsGetCapabilitiesResponse, logXAddr_prints, pos]

def logResolution (level : ℕ) (p : Ptr TtVideoResolution) : Dump := seq [
  logLevelVal level "Resolution: " (pos p),
  unlessNull p fun p => seq [
    logLevelVal (level + 1) "Width: " (.int p.width),
    logLevelVal (level + 1) "Height: " (.int p.height)]]

def logRateControl (level : ℕ) (p : Ptr TtVideoRateControl) : Dump := seq [
  logLevelVal level "RateControl: " (pos p),
  unlessNull p fun p => seq [
    logLevelVal (level + 1) "FrameRateLimit: " (.int p.frameRateLimit),
    logLevelVal (level + 1) "EncodingInterval: " (.int p.encodingInterval),
    logLevelVal (level + 1) "BitrateLimit: " (.int p.bitrateLimit)]]

theorem logResolution_prints (level : ℕ) (p : Ptr TtVideoResolution) :
    Prints LogLine.Shown (logResolution level p) := by
  simp [logResolution, pos]

theorem logRateControl_prints (level : ℕ) (p : Ptr TtVideoRateControl) :
    Prints LogLine.Shown (logRateControl level p) := by
  simp [logRateControl, pos]

-- The enumeration texts are static strings, so never NULL.
def dumpTrtGetProfilesResponse (rep : TrtGetProfilesResponse) : Dump := seq [
  logLevelVal 0 "sizeProfiles: " (.int rep.sizeProfiles),
  logLevelVal 0 "Profiles: " (.pos rep.profiles.elems.isEmpty),
  each rep.profiles fun i profile => seq [
    logLevelFmt 1 (toString i ++ "\n"),
    logLevelVal 2 "Name: " (.str profile.name),
    logLevelVal 2 "token: " (.str profile.token),
    logLevelVal 2 "fixed: " (.bool profile.fixed),
    logLevelVal 2 "VideoSourceConfiguration: " (pos profile.videoSourceConfiguration),
    unlessNull profile.videoSourceConfiguration fun vsc => seq [
      logLevelVal 3 "Name: " (.str vsc.name),
      logLevelVal 3 "UseCount: " (.int vsc.useCount),
      logLevelVal 3 "token: " (.str vsc.token),
      logLevelVal 3 "SourceToken: " (.str vsc.sourceToken),
      logLevelVal 3 "Bounds: " (pos vsc.bounds),
      unlessNull vsc.bounds fun b => seq [
        logLevelVal 4 "x: " (.int b.x),
        logLevelVal 4 "y: " (.int b.y),
        logLevelVal 4 "width: " (.int b.width),
        logLevelVal 4 "height: " (.int b.height)]],
    logLevelVal 2 "VideoEncoderConfiguration: " (pos profile.videoEncoderConfiguration),
    unlessNull profile.videoEncoderConfiguration fun vec => seq [
      logLevelVal 3 "Name: " (.str vec.name),
      logLevelVal 3 "UseCount: " (.int vec.useCount),
      logLevelVal 3 "token: " (.str vec.token),
      logLevelVal 3 "Encoding: " (.str (some (.lit (dumpEnum2strVideoEncoding vec.encoding)))),
      logLevelVal 3 "Quality: " (.float vec.quality),
      logResolution 3 vec.resolution,
      logRateControl 3 vec.rateControl],
    logLevelVal 2 "AudioSourceConfiguration: " (pos profile.audioSourceConfiguration),
    unlessNull profile.audioSourceConfiguration fun asc => seq [
      logLevelVal 3 "Name: " (.str asc.name),
      logLevelVal 3 "UseCount: " (.int asc.useCount),
      logLevelVal 3 "token: " (.str asc.token),
      logLevelVal 3 "SourceToken: " (.str asc.sourceToken)],
    logLevelVal 2 "AudioEncoderConfiguration: " (pos profile.audioEncoderConfiguration),
    unlessNull profile.audioEncoderConfiguration fun aec => seq [
      logLevelVal 3 "Name: " (.str aec.name),
      logLevelVal 3 "UseCount: " (.int aec.useCount),
      logLevelVal 3 "token: " (.str aec.token),
      logLevelVal 3 "Bitrate: " (.int aec.bitrate),
      logLevelVal 3 "SampleRate: " (.int aec.sampleRate),
      logLevelVal 3 "Encoding: " (.str (some (.lit (dumpEnum2strAudioEncoding aec.encoding))))]]]

theorem dumpTrtGetProfilesResponse_prints (rep : TrtGetProfilesResponse) :
    Prints LogLine.Shown (dumpTrtGetProfilesResponse rep) := by
  simp [dumpTrtGetProfilesResponse, logResolution_prints, logRateControl_prints, pos]

def logMediaUri (uri connect reboot timeout : String) (p : Ptr TtMediaUri) : Dump := seq [
  logLevelVal 0 "MediaUri: " (pos p),
  unlessNull p fun p => seq [
    logLevelVal 1 uri (.str p.uri),
    logLevelVal 1 connect (.bool (some p.invalidAfterConnect)),
    logLevelVal 1 reboot (.bool (some p.invalidAfterReboot)),
    logLevelVal 1 timeout .int64]]

theorem logMediaUri_prints (uri connect reboot timeout : String) (p : Ptr TtMediaUri) :
    Prints LogLine.Shown (logMediaUri uri connect reboot timeout p) := by
  simp [logMediaUri, pos]

def dumpTrtGetStreamUriResponse (rep : TrtGetStreamUriResponse) : Dump :=
  logMediaUri "Uri:                 " "InvalidAfterConnect: " "InvalidAfterReboot:  "
    "Timeout:             " rep.mediaUri

def dumpTrtGetSnapshotUriResponse (rep : TrtGetSnapshotUriResponse) : Dump :=
  logMediaUri "Uri: " "InvalidAfterConnect: " "InvalidAfterReboot: " "Timeout: " rep.mediaUri

def dumpTrtGetVideoEncoderConfigurationOptionsResponse
    (rep : TrtGetVideoEncoderConfigurationOptionsResponse) : Dump := seq [
  logLevelVal 0 "Options: " (pos rep.options),
  unlessNull rep.options fun o => seq [
    logLevelVal 1 "QualityRange: " (pos o.qualityRange),
    logLevelStructTtIntRange 2 o.qualityRange,
    logLevelVal 1 "JPEG: " (pos o.jpeg),
    logLevelVal 1 "MPEG4: " (pos o.mpeg4),
    logLevelVal 1 "H264: " (pos o.h264),
    unlessNull o.h264 fun h264 => seq [
      logLevelVal 2 "sizeResolutionsAvailable: " (.int h264.resolutionsAvailable.size),
      logLevelVal 2 "ResolutionsAvailable: " (.pos h264.resolutionsAvailable.elems.isEmpty),
      each h264.resolutionsAvailable fun _ r =>
        logLevelFmt 3 (toString r.width ++ " * " ++ toString r.height ++ "\n"),
      logLevelVal 2 "GovLengthRange: " (pos h264.govLengthRange),
      logLevelStructTtIntRange 3 h264.govLengthRange,
      logLevelVal 2 "FrameRateRange: " (pos h264.frameRateRange),
      logLevelStructTtIntRange 3 h264.frameRateRange,
      logLevelVal 2 "EncodingIntervalRange: " (pos h264.encodingIntervalRange),
      logLevelStructTtIntRange 3 h264.encodingIntervalRange,
      logLevelVal 2 "sizeH264ProfilesSupported: " (.int h264.h264ProfilesSupported.size),
      logLevelVal 2 "H264ProfilesSupported: " (.pos false),
      each h264.h264ProfilesSupported fun _ p => logLevelFmt 3 (dumpEnum2strH264Profile p ++ "\n")],
    logLevelVal 1 "Extension: " (pos o.extension)]]

theorem dumpTrtGetVideoEncoderConfigurationOptionsResponse_prints
    (rep : TrtGetVideoEncoderConfigurationOptionsResponse) :
    Prints LogLine.Shown (dumpTrtGetVideoEncoderConfigurationOptionsResponse rep) := by
  simp [dumpTrtGetVideoEncoderConfigurationOptionsResponse,
    logLevelStructTtIntRange_prints, pos]

def logLevelStructTtVideoEncoderConfiguration (level : ℕ) (vecfg : Ptr TtVideoEncoderConfiguration) :
    Dump :=
  unlessNull vecfg fun vecfg => seq [
    logLevelVal level "Name: " (.str vecfg.name),
    logLevelVal level "UseCount: " (.int vecfg.useCount),
    logLevelVal level "token: " (.str vecfg.token),
    logLevelVal level "Encoding: " (.str (some (.lit (dumpEnum2strVideoEncoding vecfg.encoding)))),
    logResolution level vecfg.resolution,
    logLevelVal level "Quality: " (.float vecfg.quality),
    logRateControl level vecfg.rateControl,
    logLevelVal level "MPEG4: " (pos vecfg.mpeg4),
    logLevelVal level "H264: " (pos vecfg.h264),
    logLevelVal level "Multicast: " (pos vecfg.multicast),
    logLevelVal level "SessionTimeout: " .int64]

def dumpTrtGetVideoEncoderConfigurationResponse (rep : TrtGetVideoEncoderConfigurationResponse) :
    Dump :=
  logLevelStructTtVideoEncoderConfiguration 1 rep.configuration

theorem dumpTrtGetVideoEncoderConfigurationResponse_prints
    (rep : TrtGetVideoEncoderConfigurationResponse) :
    Prints LogLine.Shown (dumpTrtGetVideoEncoderConfigurationResponse rep) := by
  simp [dumpTrtGetVideoEncoderConfigurationResponse, logLevelStructTtVideoEncoderConfiguration,
    logResolution_prints, logRateControl_prints, pos]

/-- A dump inside a program: only its faults are observed. -/
def runDump (d : Dump) : Prog Unit := do
  let _ ← lift d
  return ()

theorem runDump_of_ends {d : Dump} (h : Ends d) : runDump d = .ret () := by
  obtain ⟨lines, rfl⟩ := h
  rfl

end OnvifSdk
