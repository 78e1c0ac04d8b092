import Outreach.Http.Service

/-!
# Starting up

What has to hold of the settings before the service can be reached: the origin has to be fit for a
header, and the host has to be a numeric address, in the form of either version of the protocol.
-/

namespace Outreach.Http

open Text

/-! ## Addresses -/

/-- A part of an address of the older form: a number below 256 without zeros in front. -/
def isOctet (cs : List Char) : Bool :=
  !cs.isEmpty && cs.length ≤ 3 && cs.all isDigit && valueOf cs < 256 &&
    (cs.head? != some '0' || cs.length == 1)

def isAddress4 (s : String) : Bool :=
  let parts := s.splitOn "."
  parts.length == 4 && parts.all fun p ↦ isOctet p.toList

/-- A group of an address of the newer form: up to four hexadecimal digits. -/
def isGroup (s : String) : Bool :=
  let cs := s.toList
  !cs.isEmpty && cs.length ≤ 4 && cs.all fun c ↦ (hexValue? c).isSome

/-- How many groups a run of them stands for, of which the last may be an address of the older form
and then stands for two. -/
def groupCount? (s : String) (olderLast : Bool) : Option Nat :=
  if s = "" then some 0
  else
    let parts := s.splitOn ":"
    let front := parts.dropLast
    let last := parts.getLastD ""
    if !front.all isGroup then none
    else if isGroup last then some parts.length
    else if olderLast && isAddress4 last then some (parts.length + 1)
    else none

/-- Eight groups with colons between; a double colon, once, stands for groups of zero. -/
def isAddress6 (s : String) : Bool :=
  match s.splitOn "::" with
  | [whole] => groupCount? whole true == some 8
  | [front, back] =>
    match groupCount? front false, groupCount? back true with
    | some a, some b => a + b ≤ 7
    | _, _ => false
  | _ => false

def isAddress (s : String) : Bool := isAddress4 s || isAddress6 s

/-! ## Headers -/

/-- A text that may be sent as a header. -/
def isHeader (s : String) : Bool :=
  s.toList.all fun c ↦ c == '\t' || 0x20 ≤ c.toNat && c.toNat != 0x7F

/-! ## Starting -/

/-- Why the service cannot be started. -/
inductive StartFault where
  /-- The origin is not fit for a header. -/
  | badOrigin
  | badHost
deriving DecidableEq, Repr

def StartFault.message : StartFault → String
  | .badOrigin => "failed to parse header value"
  | .badHost => "invalid IP address syntax"

end Outreach.Http

namespace Outreach.Service

open Http

/-- The origin is fit for a header. -/
def hasFitOrigin (w : Service) : Bool := isHeader w.allowedOrigin

/-- Whether the service can be reached by requests. -/
def checkHttp (w : Service) : Except StartFault Unit :=
  if !w.hasFitOrigin then .error .badOrigin
  else if !isAddress w.settings.api.host then .error .badHost
  else .ok ()

/-- Whether figures about the service can be given out, if they are to be. -/
def checkMetrics (w : Service) : Except StartFault Unit :=
  if w.settings.metrics.enabled && !isAddress w.settings.api.host then .error .badHost else .ok ()

end Outreach.Service
