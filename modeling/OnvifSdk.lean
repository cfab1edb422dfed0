import OnvifSdk.Lib.Program
import OnvifSdk.Lib.CString
import OnvifSdk.Gsoap.Context
import OnvifSdk.Gsoap.Wsse
import OnvifSdk.Comm
import OnvifSdk.Debug
import OnvifSdk.DumpSafety
import OnvifSdk.Service
import OnvifSdk.Discovery
import OnvifSdk.Requests
import OnvifSdk.Host
import OnvifSdk.ProfileCount
import OnvifSdk.SetResolution
import OnvifSdk.Detection
import OnvifSdk.DeviceLoss
import OnvifSdk.DeviceAddress
import OnvifSdk.DeviceCount
import OnvifSdk.StringCopies
import OnvifSdk.UsernameToken
import OnvifSdk.Authentication
import OnvifSdk.Assertions
import OnvifSdk.Gsoap.Endpoint
import OnvifSdk.MakeUri
import OnvifSdk.UriCredentials
import OnvifSdk.Lib.Clients
import OnvifSdk.SharedDevice
import OnvifSdk.Serialisability
import OnvifSdk.Lib.Lockstep
import OnvifSdk.StaleOutput
import OnvifSdk.Gsoap.Base64
import OnvifSdk.Gsoap.DateTime
import OnvifSdk.Gsoap.Verify
import OnvifSdk.Lib.Threads
import OnvifSdk.ReplayProtection
import OnvifSdk.DigestExchange
import OnvifSdk.NonceSpelling
import OnvifSdk.Lib.Calendar
import OnvifSdk.Lib.Decimal
import OnvifSdk.PasswordCheck
import OnvifSdk.EncodedCredentials
import OnvifSdk.Gsoap.Url
import OnvifSdk.Gsoap.XmlText
import OnvifSdk.Gsoap.XmlRoundTrip
import OnvifSdk.Lib.Memory
import OnvifSdk.Gsoap.Alloc
import OnvifSdk.ContextMemory
import OnvifSdk.SharedHeap
import OnvifSdk.MemoryRuns
