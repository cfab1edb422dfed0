import OnvifSdk.Comm
import OnvifSdk.Debug

namespace OnvifSdk

open Lib Program Gsoap

structure TagCapabilities where
  mediaXAddr : CharArray onvifAddressSize
  eventXAddr : CharArray onvifAddressSize
  deriving DecidableEq

@[ext]
structure TagVideoEncoderConfiguration where
  token : CharArray onvifTokenSize
  width : ℤ
  height : ℤ
  terminated : 0 ∈ token.bytes
  deriving DecidableEq

@[ext]
structure TagProfile where
  token : CharArray onvifTokenSize
  venc : TagVideoEncoderConfiguration
  terminated : 0 ∈ token.bytes
  deriving DecidableEq

def copied (n : ℕ) (src : Ptr CStr) : CharArray (n + 1) :=
  match src with
  | none => .zero (n + 1)
  | some s => (CharArray.zero (n + 1)).strncpy s n (Nat.le_succ n)

theorem copied_terminated (n : ℕ) (src : Ptr CStr) : 0 ∈ (copied n src).bytes := by
  cases src with
  | none => simp [copied, CharArray.zero]
  | some s => exact CharArray.strncpy_zero_terminated s

theorem copied_str (n : ℕ) (src : Ptr CStr) :
    (copied n src).str.bytes = (src.elim [] (·.bytes)).take n := by
  cases src with
  | none => simp [copied, CharArray.zero_str]
  | some s => exact CharArray.strncpy_zero_str s

def tagVideoEncoderConfiguration (vec : Ptr TtVideoEncoderConfiguration) :
    TagVideoEncoderConfiguration where
  token := copied 64 (vec.bind (·.token))
  width := (vec.bind (·.resolution)).elim 0 (·.width)
  height := (vec.bind (·.resolution)).elim 0 (·.height)
  terminated := copied_terminated 64 _

def tagProfile (ttProfile : TtProfile) : TagProfile where
  token := copied 64 ttProfile.token
  venc := tagVideoEncoderConfiguration ttProfile.videoEncoderConfiguration
  terminated := copied_terminated 64 _

def tagCapabilities (rep : TdsGetCapabilitiesResponse) : TagCapabilities where
  mediaXAddr := copied 127 ((rep.capabilities.bind (·.media)).bind (·.xAddr))
  eventXAddr := copied 127 ((rep.capabilities.bind (·.events)).bind (·.xAddr))

-- Every request is preceded by `ONVIF_SetAuthInfo`, whose result each of the callers drops.
def request (b : Build) (s : Service) (soap : Ptr Soap) (endpoint : Ptr CStr) (req : s.Req)
    (username password : Ptr CStr) : Prog (ℤ × Ptr Soap × s.Rep) := do
  let (_, soap) ← onvifSetAuthInfo b soap username password
  soapCall s soap endpoint req

def onvifGetCapabilities (b : Build) (deviceXAddr : Ptr CStr) (capa : Ptr TagCapabilities)
    (username password : Ptr CStr) : Prog (ℤ × Ptr TagCapabilities) := do
  soapAssert b deviceXAddr.isSome
  soapAssert b capa.isSome
  let soap ← soapAssertAssign b (onvifSoapNew b soapSockTimeout)
  let (result, soap, rep) ← request b .getCapabilities soap deviceXAddr {} username password
  let failed ← soapCheckError result soap
  match failed with
  | some result => soapExit soap (result, capa)
  | none => do
    runDump (dumpTdsGetCapabilitiesResponse rep)
    let _ ← deref capa
    soapExit soap (result, some (tagCapabilities rep))

def newProfiles (b : Build) (rep : TrtGetProfilesResponse) (profiles : Ptr (Ptr (List TagProfile))) :
    Prog (Ptr (Ptr (List TagProfile))) :=
  if rep.sizeProfiles > 0 then do
    let _ ← deref profiles
    let found ← perform (S := gsoap) (.mallocTagProfiles rep.profiles.elems.length)
    soapAssert b found
    if !found then .stop .memory else .ret (some (some (rep.profiles.elems.map tagProfile)))
  else .ret profiles

/-- `profiles` is the out parameter; what it points to is NULL or an array of records. -/
def onvifGetProfiles (b : Build) (mediaXAddr : Ptr CStr) (profiles : Ptr (Ptr (List TagProfile)))
    (username password : Ptr CStr) : Prog (ℤ × Ptr (Ptr (List TagProfile))) := do
  soapAssert b mediaXAddr.isSome
  let soap ← soapAssertAssign b (onvifSoapNew b soapSockTimeout)
  let (result, soap, rep) ← request b .getProfiles soap mediaXAddr {} username password
  let failed ← soapCheckError result soap
  match failed with
  | some _ => soapExit soap (TrtGetProfilesResponse.sizeProfiles rep, profiles)
  | none => do
    runDump (dumpTrtGetProfilesResponse rep)
    let profiles ← newProfiles b rep profiles
    soapExit soap (TrtGetProfilesResponse.sizeProfiles rep, profiles)

def onvifReleaseProfiles (profiles : Ptr (List TagProfile)) : Prog ℤ :=
  if profiles.isSome then do
    perform (S := gsoap) .freeTagProfiles
    return 0
  else .ret 0

-- The end of `ONVIF_GetStreamUri` and of `ONVIF_GetSnapshotUri`, from `result = -1` on.
def storeUri (mediaUri : Ptr TtMediaUri) (uri : List UInt8) (sizeuri : UInt32) :
    Prog (ℤ × List UInt8) :=
  match mediaUri.bind (·.uri) with
  | none => .ret (-1, uri)
  | some s =>
    if sizeuri.toNat > s.length then do
      let uri ← lift (strcpy uri s)
      return (0, uri)
    else .ret (-1, uri)

def onvifGetStreamUri (b : Build) (mediaXAddr profileToken : Ptr CStr) (uri : Ptr (List UInt8))
    (sizeuri : UInt32) (username password : Ptr CStr) : Prog (ℤ × List UInt8) := do
  soapAssert b mediaXAddr.isSome
  soapAssert b uri.isSome
  let uri ← deref uri
  let uri ← lift (memset uri 0 sizeuri.toNat)
  let soap ← soapAssertAssign b (onvifSoapNew b soapSockTimeout)
  let ttStreamSetup : TtStreamSetup := ⟨.rtpUnicast, some ⟨.rtsp, none⟩⟩
  let req : TrtGetStreamUri := ⟨some ttStreamSetup, profileToken⟩
  let (result, soap, rep) ← request b .getStreamUri soap mediaXAddr req username password
  let failed ← soapCheckError result soap
  match failed with
  | some result => soapExit soap (result, uri)
  | none => do
    runDump (dumpTrtGetStreamUriResponse rep)
    let (result, uri) ← storeUri (TrtGetStreamUriResponse.mediaUri rep) uri sizeuri
    soapExit soap (result, uri)

def onvifGetSnapshotUri (b : Build) (mediaXAddr profileToken : Ptr CStr) (uri : Ptr (List UInt8))
    (sizeuri : UInt32) (username password : Ptr CStr) : Prog (ℤ × List UInt8) := do
  soapAssert b mediaXAddr.isSome
  soapAssert b uri.isSome
  let uri ← deref uri
  let uri ← lift (memset uri 0 sizeuri.toNat)
  let soap ← soapAssertAssign b (onvifSoapNew b soapSockTimeout)
  let req : TrtGetSnapshotUri := ⟨profileToken⟩
  let (result, soap, rep) ← request b .getSnapshotUri soap mediaXAddr req username password
  let failed ← soapCheckError result soap
  match failed with
  | some result => soapExit soap (result, uri)
  | none => do
    runDump (dumpTrtGetSnapshotUriResponse rep)
    let (result, uri) ← storeUri (TrtGetSnapshotUriResponse.mediaUri rep) uri sizeuri
    soapExit soap (result, uri)

def onvifGetVideoEncoderConfigurationOptions (b : Build) (mediaXAddr configurationToken : Ptr CStr)
    (username password : Ptr CStr) : Prog ℤ := do
  soapAssert b mediaXAddr.isSome
  let soap ← soapAssertAssign b (onvifSoapNew b soapSockTimeout)
  let req : TrtGetVideoEncoderConfigurationOptions := { configurationToken := configurationToken }
  let (result, soap, rep) ←
    request b .getVideoEncoderConfigurationOptions soap mediaXAddr req username password
  let failed ← soapCheckError result soap
  match failed with
  | some result => soapExit soap result
  | none => do
    runDump (dumpTrtGetVideoEncoderConfigurationOptionsResponse rep)
    soapExit soap result

def onvifGetVideoEncoderConfiguration (b : Build) (mediaXAddr configurationToken : Ptr CStr)
    (username password : Ptr CStr) : Prog ℤ := do
  soapAssert b mediaXAddr.isSome
  let soap ← soapAssertAssign b (onvifSoapNew b soapSockTimeout)
  let req : TrtGetVideoEncoderConfiguration := ⟨configurationToken⟩
  let (result, soap, rep) ←
    request b .getVideoEncoderConfiguration soap mediaXAddr req username password
  let failed ← soapCheckError result soap
  match failed with
  | some result => soapExit soap result
  | none => do
    runDump (dumpTrtGetVideoEncoderConfigurationResponse rep)
    soapExit soap result

def setResolution (venc : TagVideoEncoderConfiguration) (cfg : TtVideoEncoderConfiguration) :
    TtVideoEncoderConfiguration :=
  match cfg.resolution with
  | none => cfg
  | some _ => { cfg with resolution := some ⟨venc.width, venc.height⟩ }

def onvifSetVideoEncoderConfiguration (b : Build) (mediaXAddr : Ptr CStr)
    (venc : Ptr TagVideoEncoderConfiguration) (username password : Ptr CStr) : Prog ℤ := do
  soapAssert b mediaXAddr.isSome
  soapAssert b venc.isSome
  let soap ← soapAssertAssign b (onvifSoapNew b soapSockTimeout)
  let venc ← deref venc
  let gVECfgReq : TrtGetVideoEncoderConfiguration := ⟨some venc.token.str⟩
  let (result, soap, gVECfgRep) ←
    request b .getVideoEncoderConfiguration soap mediaXAddr gVECfgReq username password
  let failed ← soapCheckError result soap
  match failed with
  | some result => soapExit soap result
  | none =>
    match TrtGetVideoEncoderConfigurationResponse.configuration gVECfgRep with
    | none => soapExit soap result
    | some cfg => do
      let sVECfgReq : TrtSetVideoEncoderConfiguration := ⟨some (setResolution venc cfg), true⟩
      let (result, soap, _) ←
        request b .setVideoEncoderConfiguration soap mediaXAddr sVECfgReq username password
      let failed ← soapCheckError result soap
      soapExit soap (failed.getD result)

end OnvifSdk
