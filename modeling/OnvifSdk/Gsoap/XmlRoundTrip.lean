import OnvifSdk.Gsoap.XmlReader

namespace OnvifSdk.Gsoap

open OnvifSdk.Lib

variable (utf : Bool) (entity : CStr → UInt16)

variable {utf entity}

end OnvifSdk.Gsoap
