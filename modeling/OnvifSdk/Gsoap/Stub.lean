import OnvifSdk.Lib.CString

namespace OnvifSdk.Gsoap

open OnvifSdk.Lib

abbrev Ptr (α : Type) := Option α

structure DynArray (α : Type) where
  elems : List α
  bound : elems.length < 2 ^ 31
  deriving DecidableEq

def DynArray.size {α : Type} (a : DynArray α) : ℤ := a.elems.length

def DynArray.empty (α : Type) : DynArray α := ⟨[], by simp⟩

def DynArray.read {α : Type} (a : DynArray α) (i : ℕ) : Outcome α :=
  match a.elems[i]? with
  | none => .error .memory
  | some x => .ok x

-- An element that the SDK copies or drops but never looks into, as its serialisation.
structure Element where
  xml : List UInt8
  deriving DecidableEq

structure WssePassword where
  item : Ptr CStr := none
  type : Ptr CStr := none
  deriving DecidableEq

structure WsseEncodedString where
  item : Ptr CStr := none
  encodingType : Ptr CStr := none
  wsuId : Ptr CStr := none
  deriving DecidableEq

structure WsseUsernameToken where
  username : Ptr CStr := none
  password : Ptr WssePassword := none
  nonce : Ptr WsseEncodedString := none
  salt : Ptr CStr := none
  iteration : Ptr UInt32 := none
  wsuCreated : Ptr CStr := none
  wsuId : Ptr CStr := none
  deriving DecidableEq

structure WsseSecurity where
  wsuTimestamp : Ptr Element := none
  usernameToken : Ptr WsseUsernameToken := none
  binarySecurityToken : Ptr Element := none
  xencEncryptedKey : Ptr Element := none
  xencReferenceList : Ptr Element := none
  wscSecurityContextToken : Ptr Element := none
  dsSignature : Ptr Element := none
  saml1Assertion : Ptr Element := none
  saml2Assertion : Ptr Element := none
  soapEnvActor : Ptr CStr := none
  soapEnvRole : Ptr CStr := none
  deriving DecidableEq

structure SoapEnvHeader where
  wsaMessageID : Ptr CStr := none
  wsaRelatesTo : Ptr Element := none
  wsaFrom : Ptr Element := none
  wsaReplyTo : Ptr Element := none
  wsaFaultTo : Ptr Element := none
  wsaTo : Ptr CStr := none
  wsaAction : Ptr CStr := none
  wsddAppSequence : Ptr Element := none
  wsa5MessageID : Ptr CStr := none
  wsa5RelatesTo : Ptr Element := none
  wsa5From : Ptr Element := none
  wsa5ReplyTo : Ptr Element := none
  wsa5FaultTo : Ptr Element := none
  wsa5To : Ptr CStr := none
  wsa5Action : Ptr CStr := none
  chanChannelInstance : Ptr Element := none
  wsseSecurity : Ptr WsseSecurity := none
  deriving DecidableEq

-- Without `SOAP_XML_STRICT` the decoder takes any number for an enumeration.
inductive TtVideoEncoding
  | jpeg | mpeg4 | h264
  | other (val : ℤ) (unnamed : val < 0 ∨ 2 < val)
  deriving DecidableEq

inductive TtAudioEncoding
  | g711 | g726 | aac
  | other (val : ℤ) (unnamed : val < 0 ∨ 2 < val)
  deriving DecidableEq

inductive TtH264Profile
  | baseline | main | extended | high
  | other (val : ℤ) (unnamed : val < 0 ∨ 3 < val)
  deriving DecidableEq

inductive TtSetDateTimeType
  | manual | ntp
  | other (val : ℤ) (unnamed : val < 0 ∨ 1 < val)
  deriving DecidableEq

def TtSetDateTimeType.toInt : TtSetDateTimeType → ℤ
  | manual => 0
  | ntp => 1
  | other val _ => val

inductive XsdBoolean
  | false | true
  | other (val : ℤ) (unnamed : val < 0 ∨ 1 < val)
  deriving DecidableEq

def XsdBoolean.toInt : XsdBoolean → ℤ
  | false => 0
  | true => 1
  | other val _ => val

inductive TtStreamType
  | rtpUnicast | rtpMulticast
  deriving DecidableEq

inductive TtTransportProtocol
  | udp | tcp | rtsp | http
  deriving DecidableEq

structure TtVideoResolution where
  width : ℤ
  height : ℤ
  deriving DecidableEq

structure TtVideoRateControl where
  frameRateLimit : ℤ
  encodingInterval : ℤ
  bitrateLimit : ℤ
  deriving DecidableEq

/-- `quality` is the bit pattern of the `float`. -/
structure TtVideoEncoderConfiguration where
  name : Ptr CStr := none
  useCount : ℤ := 0
  token : Ptr CStr := none
  encoding : TtVideoEncoding := .jpeg
  resolution : Ptr TtVideoResolution := none
  quality : UInt32 := 0
  rateControl : Ptr TtVideoRateControl := none
  mpeg4 : Ptr Element := none
  h264 : Ptr Element := none
  multicast : Ptr Element := none
  sessionTimeout : Ptr CStr := none
  guaranteedFrameRate : Ptr Bool := none
  deriving DecidableEq

structure TtIntRectangle where
  x : ℤ
  y : ℤ
  width : ℤ
  height : ℤ
  deriving DecidableEq

structure TtVideoSourceConfiguration where
  name : Ptr CStr
  useCount : ℤ
  token : Ptr CStr
  sourceToken : Ptr CStr
  bounds : Ptr TtIntRectangle
  deriving DecidableEq

structure TtAudioSourceConfiguration where
  name : Ptr CStr
  useCount : ℤ
  token : Ptr CStr
  sourceToken : Ptr CStr
  deriving DecidableEq

structure TtAudioEncoderConfiguration where
  name : Ptr CStr
  useCount : ℤ
  token : Ptr CStr
  encoding : TtAudioEncoding
  bitrate : ℤ
  sampleRate : ℤ
  deriving DecidableEq

structure TtProfile where
  name : Ptr CStr := none
  videoSourceConfiguration : Ptr TtVideoSourceConfiguration := none
  audioSourceConfiguration : Ptr TtAudioSourceConfiguration := none
  videoEncoderConfiguration : Ptr TtVideoEncoderConfiguration := none
  audioEncoderConfiguration : Ptr TtAudioEncoderConfiguration := none
  token : Ptr CStr := none
  fixed : Ptr Bool := none
  deriving DecidableEq

-- The thirteen capability structures, of which the SDK reads the address and nothing else.
structure TtXAddrCapabilities where
  xAddr : Ptr CStr
  deriving DecidableEq

structure TtCapabilitiesExtension where
  deviceIO : Ptr TtXAddrCapabilities := none
  display : Ptr TtXAddrCapabilities := none
  recording : Ptr TtXAddrCapabilities := none
  search : Ptr TtXAddrCapabilities := none
  replay : Ptr TtXAddrCapabilities := none
  receiver : Ptr TtXAddrCapabilities := none
  analyticsDevice : Ptr TtXAddrCapabilities := none
  deriving DecidableEq

structure TtCapabilities where
  analytics : Ptr TtXAddrCapabilities := none
  device : Ptr TtXAddrCapabilities := none
  events : Ptr TtXAddrCapabilities := none
  imaging : Ptr TtXAddrCapabilities := none
  media : Ptr TtXAddrCapabilities := none
  ptz : Ptr TtXAddrCapabilities := none
  extension : Ptr TtCapabilitiesExtension := none
  deriving DecidableEq

structure TtMediaUri where
  uri : Ptr CStr
  invalidAfterConnect : Bool := false
  invalidAfterReboot : Bool := false
  timeout : Ptr CStr := none
  deriving DecidableEq

structure TtIntRange where
  min : ℤ
  max : ℤ
  deriving DecidableEq

structure TtH264Options where
  resolutionsAvailable : DynArray TtVideoResolution
  govLengthRange : Ptr TtIntRange
  frameRateRange : Ptr TtIntRange
  encodingIntervalRange : Ptr TtIntRange
  h264ProfilesSupported : DynArray TtH264Profile
  deriving DecidableEq

structure TtVideoEncoderConfigurationOptions where
  qualityRange : Ptr TtIntRange
  jpeg : Ptr Element
  mpeg4 : Ptr Element
  h264 : Ptr TtH264Options
  extension : Ptr Element
  deriving DecidableEq

structure TtTransport where
  protocol : TtTransportProtocol
  tunnel : Ptr Element
  deriving DecidableEq

structure TtStreamSetup where
  stream : TtStreamType
  transport : Ptr TtTransport
  deriving DecidableEq

structure TtTime where
  hour : ℤ
  minute : ℤ
  second : ℤ
  deriving DecidableEq

structure TtDate where
  year : ℤ
  month : ℤ
  day : ℤ
  deriving DecidableEq

structure TtDateTime where
  time : Ptr TtTime
  date : Ptr TtDate
  deriving DecidableEq

structure TtTimeZone where
  tz : Ptr CStr
  deriving DecidableEq

structure TtSystemDateTime where
  dateTimeType : TtSetDateTimeType
  daylightSavings : XsdBoolean
  timeZone : Ptr TtTimeZone
  utcDateTime : Ptr TtDateTime
  localDateTime : Ptr TtDateTime
  deriving DecidableEq

structure TdsGetDeviceInformationResponse where
  manufacturer : Ptr CStr := none
  model : Ptr CStr := none
  firmwareVersion : Ptr CStr := none
  serialNumber : Ptr CStr := none
  hardwareId : Ptr CStr := none
  deriving DecidableEq

structure TdsGetSystemDateAndTimeResponse where
  systemDateAndTime : Ptr TtSystemDateTime := none
  deriving DecidableEq

structure TdsGetCapabilities where
  category : List Element := []
  deriving DecidableEq

structure TdsGetCapabilitiesResponse where
  capabilities : Ptr TtCapabilities := none
  deriving DecidableEq

structure TrtGetProfiles where
  deriving DecidableEq

structure TrtGetProfilesResponse where
  profiles : DynArray TtProfile := .empty _
  deriving DecidableEq

def TrtGetProfilesResponse.sizeProfiles (rep : TrtGetProfilesResponse) : ℤ := rep.profiles.size

structure TrtGetStreamUri where
  streamSetup : Ptr TtStreamSetup
  profileToken : Ptr CStr
  deriving DecidableEq

structure TrtGetStreamUriResponse where
  mediaUri : Ptr TtMediaUri := none
  deriving DecidableEq

structure TrtGetSnapshotUri where
  profileToken : Ptr CStr
  deriving DecidableEq

structure TrtGetSnapshotUriResponse where
  mediaUri : Ptr TtMediaUri := none
  deriving DecidableEq

structure TrtGetVideoEncoderConfigurationOptions where
  configurationToken : Ptr CStr := none
  profileToken : Ptr CStr := none
  deriving DecidableEq

structure TrtGetVideoEncoderConfigurationOptionsResponse where
  options : Ptr TtVideoEncoderConfigurationOptions := none
  deriving DecidableEq

structure TrtGetVideoEncoderConfiguration where
  configurationToken : Ptr CStr
  deriving DecidableEq

structure TrtGetVideoEncoderConfigurationResponse where
  configuration : Ptr TtVideoEncoderConfiguration := none
  deriving DecidableEq

structure TrtSetVideoEncoderConfiguration where
  configuration : Ptr TtVideoEncoderConfiguration
  forcePersistence : Bool
  deriving DecidableEq

structure TrtSetVideoEncoderConfigurationResponse where
  deriving DecidableEq

structure WsaReferencesType where
  any : DynArray (Ptr CStr)
  deriving DecidableEq

structure WsaServiceNameType where
  item : Ptr CStr
  portName : Ptr CStr
  anyAttribute : Ptr CStr
  deriving DecidableEq

structure WsaEndpointReferenceType where
  address : Ptr CStr
  referenceProperties : Ptr WsaReferencesType := none
  referenceParameters : Ptr WsaReferencesType := none
  portType : Ptr (Ptr CStr) := none
  serviceName : Ptr WsaServiceNameType := none
  any : DynArray (Ptr CStr) := .empty _
  anyAttribute : Ptr CStr := none
  deriving DecidableEq

structure WsddScopesType where
  item : Ptr CStr
  matchBy : Ptr CStr := none
  deriving DecidableEq

structure WsddProbeType where
  types : Ptr CStr
  scopes : Ptr WsddScopesType
  deriving DecidableEq

structure WsddProbeMatchType where
  wsaEndpointReference : WsaEndpointReferenceType
  types : Ptr CStr := none
  scopes : Ptr WsddScopesType := none
  xAddrs : Ptr CStr
  metadataVersion : UInt32 := 0
  deriving DecidableEq

structure WsddProbeMatchesType where
  probeMatch : DynArray WsddProbeMatchType
  deriving DecidableEq

structure WsddProbeMatches where
  wsddProbeMatches : Ptr WsddProbeMatchesType := none
  deriving DecidableEq

end OnvifSdk.Gsoap
