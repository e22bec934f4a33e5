import Qanat.Errors

/-
  Route messages, route errors and the payload of a failure.

  Timestamps are left out: nothing the route core does
  depends on them.

  Main declarations:
    * `RouteMessage`, `RouteError`, `RouteFailure`
    * `contentTypeIsTextual`, `forwardedHttpErrorHeaders`
-/

------------------------------------------------------------
-- Texts
------------------------------------------------------------

namespace Qanat

namespace Router

/- `to_ascii_lowercase`. -/
def toAsciiLowercase (text : String) : String :=
  String.ofList (text.toList.map Char.toLower)

/- `eq_ignore_ascii_case`. -/
def eqIgnoreAsciiCase (text other : String) : Bool :=
  toAsciiLowercase text = toAsciiLowercase other

theorem toLower_toLower (c : Char) :
    c.toLower.toLower = c.toLower := by
  unfold Char.toLower
  by_cases hUpper : 65 ≤ c.val ∧ c.val ≤ 90
  · have hLower : ¬ (65 ≤ c.val + 32 ∧ c.val + 32 ≤ 90) := by
      rw [UInt32.le_iff_toNat_le, UInt32.le_iff_toNat_le]
        at hUpper ⊢
      rw [UInt32.toNat_add]
      change 65 ≤ c.val.toNat ∧ c.val.toNat ≤ 90 at hUpper
      change ¬ (65 ≤ (c.val.toNat + 32) % 4294967296 ∧
        (c.val.toNat + 32) % 4294967296 ≤ 90)
      omega
    simp [hUpper, hLower]
  · simp [hUpper]

theorem toAsciiLowercase_idem (text : String) :
    toAsciiLowercase (toAsciiLowercase text) =
      toAsciiLowercase text := by
  unfold toAsciiLowercase
  rw [String.toList_ofList, List.map_map]
  congr 1
  apply List.map_congr_left
  intro c _
  exact toLower_toLower c

/- `char::is_whitespace`: the Unicode property White_Space. -/
def isWhitespace (c : Char) : Bool :=
  (9 ≤ c.toNat && c.toNat ≤ 13) ||
    (0x2000 ≤ c.toNat && c.toNat ≤ 0x200A) ||
    [0x20, 0x85, 0xA0, 0x1680, 0x2028, 0x2029, 0x202F,
      0x205F, 0x3000].contains c.toNat

/- `str::trim`. -/
def trim (text : List Char) : List Char :=
  ((text.dropWhile isWhitespace).reverse.dropWhile
    isWhitespace).reverse

end Router

end Qanat

------------------------------------------------------------
-- Messages
------------------------------------------------------------

namespace Qanat

namespace Router

def routeFailureHeader : String := "qanat-route-failure"

def httpStatusHeader : String := "qanat-http-status"

def correlationIdHeader : String := "correlation_id"

def replyToHeader : String := "reply_to"

inductive DeliveryDecision where
| ack
| retry
| reject
deriving DecidableEq, Repr

structure RouteMessage where
  address : String
  id : UInt64
  messageId : String
  headers : Headers
  metadata : Headers
  attempts : UInt32
  payload : Bytes
deriving DecidableEq

inductive RouteErrorStage where
| handler
| delivery
deriving DecidableEq, Repr

structure RouteError where
  stage : RouteErrorStage
  code : String
  message : String
deriving DecidableEq, Repr

namespace RouteError

/- `RouteError::handler`, given the text of the error. -/
def handler (text : String) : RouteError where
  stage := .handler
  code := "route.handler"
  message := text

/- `RouteError::delivery`, given the text of the error. -/
def delivery (text : String) : RouteError where
  stage := .delivery
  code := "route.delivery"
  message := text

/- `From<BusError>`. -/
def ofBusError (error : BusError) : RouteError :=
  handler error.display

end RouteError

end Router

end Qanat

------------------------------------------------------------
-- Failures
------------------------------------------------------------

namespace Qanat

namespace Router

/- The media type up to its parameters, in lower case. -/
def mediaType (value : String) : List Char :=
  (trim (value.toList.takeWhile (fun c => c ≠ ';'))).map
    Char.toLower

def contentTypeIsTextual (headers : Headers) : Bool :=
  match headers.entries.find?
      (fun header =>
        eqIgnoreAsciiCase header.1 "content-type") with
  | none => false
  | some header =>
      let media := mediaType header.2
      "text/".toList.isPrefixOf media ||
        media = "application/json".toList ||
        ("application/".toList.isPrefixOf media &&
          "+json".toList.isSuffixOf media) ||
        media = "application/xml".toList ||
        ("application/".toList.isPrefixOf media &&
          "+xml".toList.isSuffixOf media) ||
        media = "application/x-www-form-urlencoded".toList ||
        media = "application/javascript".toList ||
        media = "application/ecmascript".toList

structure FailedRouteMessage where
  address : String
  id : UInt64
  messageId : String
  headers : Headers
  metadata : Headers
  attempts : UInt32
  payload : Bytes
  payloadText : Option String
deriving DecidableEq

/- `From<RouteMessage>`. -/
def FailedRouteMessage.ofMessage (message : RouteMessage) :
    FailedRouteMessage where
  address := message.address
  id := message.id
  messageId := message.messageId
  headers := message.headers
  metadata := message.metadata
  attempts := message.attempts
  payload := message.payload
  payloadText :=
    if contentTypeIsTextual message.headers then
      String.fromUTF8? message.payload.toByteArray
    else
      none

structure RouteFailure where
  error : RouteError
  original : FailedRouteMessage
deriving DecidableEq

/- The headers of a response that are never forwarded. -/
def excludedHttpErrorHeaders : List String :=
  ["connection", "keep-alive", "proxy-authenticate",
    "proxy-authorization", "te", "trailer",
    "transfer-encoding", "upgrade", "content-length",
    "host", "authorization", "cookie", "set-cookie"]

/- The headers that the `Connection` headers name. -/
def connectionHeaders (headers : Headers) : List String :=
  (headers.entries.filter
    (fun header =>
      eqIgnoreAsciiCase header.1 "connection")).flatMap
    (fun header =>
      (header.2.toList.splitOn ',').map
        (fun name =>
          toAsciiLowercase (String.ofList (trim name))))

/-
  Collecting into a map: a later header of a name replaces
  an earlier one.
-/
def forwardedHttpErrorHeaders (headers : Headers) :
    Headers :=
  headers.entries.foldl
    (fun forwarded header =>
      let name := toAsciiLowercase header.1
      if excludedHttpErrorHeaders.contains name ||
          "qanat-".toList.isPrefixOf name.toList ||
          name = correlationIdHeader ||
          name = replyToHeader ||
          (connectionHeaders headers).contains name then
        forwarded
      else
        forwarded.insert name header.2)
    ∅

end Router

end Qanat
