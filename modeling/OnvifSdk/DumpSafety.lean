import OnvifSdk.Debug

namespace OnvifSdk.DumpSafety

open Lib Gsoap Dump

inductive Response
  | probeMatches (rep : WsddProbeMatches)
  | getDeviceInformation (rep : TdsGetDeviceInformationResponse)
  | getSystemDateAndTime (rep : TdsGetSystemDateAndTimeResponse)
  | getCapabilities (rep : TdsGetCapabilitiesResponse)
  | getProfiles (rep : TrtGetProfilesResponse)
  | getStreamUri (rep : TrtGetStreamUriResponse)
  | getSnapshotUri (rep : TrtGetSnapshotUriResponse)
  | getVideoEncoderConfigurationOptions (rep : TrtGetVideoEncoderConfigurationOptionsResponse)
  | getVideoEncoderConfiguration (rep : TrtGetVideoEncoderConfigurationResponse)

namespace Response

def dump : Response → Dump
  | probeMatches rep => dumpWsddProbeMatches rep
  | getDeviceInformation rep => dumpTdsGetDeviceInformationResponse rep
  | getSystemDateAndTime rep => dumpTdsGetSystemDateAndTime rep
  | getCapabilities rep => dumpTdsGetCapabilitiesResponse rep
  | getProfiles rep => dumpTrtGetProfilesResponse rep
  | getStreamUri rep => dumpTrtGetStreamUriResponse rep
  | getSnapshotUri rep => dumpTrtGetSnapshotUriResponse rep
  | getVideoEncoderConfigurationOptions rep => dumpTrtGetVideoEncoderConfigurationOptionsResponse rep
  | getVideoEncoderConfiguration rep => dumpTrtGetVideoEncoderConfigurationResponse rep

/-- What the dumps take for granted: the name behind a `PortType`, and every part of a time. -/
def Complete : Response → Prop
  | probeMatches rep => ∀ p, rep.wsddProbeMatches = some p →
      ∀ m ∈ p.probeMatch.elems, m.wsaEndpointReference.portType ≠ some none
  | getSystemDateAndTime rep => ∃ systm, rep.systemDateAndTime = some systm ∧
      (∀ d, systm.utcDateTime = some d → Dated d) ∧ (∀ d, systm.localDateTime = some d → Dated d)
  | _ => True

end Response

/-- A dump runs to its end, with no NULL for a `%s`, exactly where it finds what it takes for
granted. -/
theorem dump_runs_to_end_iff (rep : Response) : Prints LogLine.Shown rep.dump ↔ rep.Complete := by
  cases rep with
  | probeMatches rep => exact dumpWsddProbeMatches_prints
  | getSystemDateAndTime rep => exact dumpTdsGetSystemDateAndTime_prints
  | getDeviceInformation rep =>
    exact iff_of_true (dumpTdsGetDeviceInformationResponse_prints rep) trivial
  | getCapabilities rep => exact iff_of_true (dumpTdsGetCapabilitiesResponse_prints rep) trivial
  | getProfiles rep => exact iff_of_true (dumpTrtGetProfilesResponse_prints rep) trivial
  | getStreamUri rep => exact iff_of_true (logMediaUri_prints _ _ _ _ rep.mediaUri) trivial
  | getSnapshotUri rep => exact iff_of_true (logMediaUri_prints _ _ _ _ rep.mediaUri) trivial
  | getVideoEncoderConfigurationOptions rep =>
    exact iff_of_true (dumpTrtGetVideoEncoderConfigurationOptionsResponse_prints rep) trivial
  | getVideoEncoderConfiguration rep =>
    exact iff_of_true (dumpTrtGetVideoEncoderConfigurationResponse_prints rep) trivial

def undated : TtSystemDateTime where
  dateTimeType := .ntp
  daylightSavings := .false
  timeZone := none
  utcDateTime := some ⟨none, none⟩
  localDateTime := none

def unnamedPort : WsddProbeMatchType where
  wsaEndpointReference := { address := some (.lit "urn:uuid:1"), portType := some none }
  xAddrs := some (.lit "http://192.168.0.2")

/-- A reply without a time and one with an empty time abort the client, and a port type without a
name hands NULL to `%s`. -/
theorem dumps_abort_and_print_null :
    (Response.getSystemDateAndTime {}).dump = .error .assertion ∧
    (Response.getSystemDateAndTime ⟨some undated⟩).dump = .error .assertion ∧
    ∃ lines, (Response.probeMatches ⟨some ⟨⟨[unnamedPort], by simp⟩⟩⟩).dump = .ok lines ∧
      ∃ l ∈ lines, ¬ l.Shown := by
  refine ⟨rfl, rfl, _, rfl, .val 4 "PortType: " (.strp (some none)), ?_, by simp⟩
  exact List.mem_of_getElem? (i := 8) rfl

end OnvifSdk.DumpSafety
