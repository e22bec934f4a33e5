import Qanat.Bus.ExternalBus
import Qanat.Codec
import Qanat.Router.Process

/-
  HTTP requests as the inputs and the outputs of routes.

  The server and the client are outside: a request arrives
  with its headers as a list, in which a value that is no
  visible text is `none`, and with its body, if it could be
  read; a request that is sent has a response or an error.

  Main declarations:
    * `HttpRequest`, `HttpTarget`
    * `IncomingRequest`, `enqueueRequest`
    * `HttpTarget.lookup_request`, `lookup_of_encode`
-/

------------------------------------------------------------
-- Requests
------------------------------------------------------------

namespace Qanat

namespace Http

inductive HttpMethod where
| get
| post
| put
| patch
| delete
deriving DecidableEq, Repr

structure HttpRequest where
  method : HttpMethod
  url : String
  headers : Headers
  body : Bytes
deriving DecidableEq

/- `is_success`. -/
def IsSuccess (response : HttpResponse) : Bool :=
  200 ≤ response.status && response.status < 300

end Http

end Qanat

------------------------------------------------------------
-- Sources
------------------------------------------------------------

namespace Qanat

namespace Http

open Router (RouteMessage)
open Bus (HeaderIteration ensureMessageId)

structure IncomingRequest where
  uri : String
  pathParameters : Headers
  headers : List (String × Option String)
  body : Option Bytes

def httpPathParameterPrefix : String := "http.path."

/- The headers whose values are visible texts. -/
def visibleHeaders (request : IncomingRequest) : Headers :=
  Headers.collect
    (request.headers.filterMap
      (fun header => header.2.map (fun value =>
        (header.1, value))))

/- The message of a request with the given body. -/
def requestMessage
    (iteration : HeaderIteration) (fresh : String)
    (number : UInt64) (request : IncomingRequest)
    (payload : Bytes) : RouteMessage :=
  let identified :=
    ensureMessageId fresh
      (iteration.order (visibleHeaders request))
  { address := request.uri
    id := number
    messageId := identified.1
    headers := identified.2
    metadata :=
      Headers.collect
        (request.pathParameters.entries.map
          (fun parameter =>
            (httpPathParameterPrefix ++ parameter.1,
              parameter.2)))
    attempts := 0
    payload := payload }

/- `enqueue_request`; what is too large has no message. -/
def enqueueRequest
    (iteration : HeaderIteration) (fresh : String)
    (number : UInt64) (bodyLimit : Nat)
    (request : IncomingRequest) : Option RouteMessage :=
  match request.body with
  | none => none
  | some payload =>
      if bodyLimit < payload.length then
        none
      else
        some
          (requestMessage iteration fresh number request
            payload)

theorem enqueueRequest_eq_some
    {iteration : HeaderIteration} {fresh : String}
    {number : UInt64} {bodyLimit : Nat}
    {request : IncomingRequest} {message : RouteMessage}
    (hMessage :
      enqueueRequest iteration fresh number bodyLimit request =
        some message) :
    ∃ payload,
      message =
        requestMessage iteration fresh number request
          payload := by
  unfold enqueueRequest at hMessage
  split at hMessage
  · cases hMessage
  · rename_i payload _
    split at hMessage
    · cases hMessage
    · cases hMessage
      exact ⟨payload, rfl⟩

end Http

end Qanat

------------------------------------------------------------
-- Targets
------------------------------------------------------------

namespace Qanat

namespace Http

open Router (RouteMessage RouteTarget replyToHeader)

structure HttpTarget (Ser De : Type → Type) where
  method : HttpMethod
  url : String
  invoker : HttpRequest → Except BusError HttpResponse
  codec : Codec Ser De

namespace HttpTarget

variable {Ser De : Type → Type} {Value : Type}

/- The request that `send` makes. -/
def request
    (target : HttpTarget Ser De) (body : Bytes)
    (headers : Headers) : HttpRequest where
  method := target.method
  url := target.url
  headers :=
    if (headers.lookup "content-type").isSome then headers
    else
      headers.insert "content-type" "application/octet-stream"
  body := body

def send
    (target : HttpTarget Ser De) (body : Bytes)
    (headers : Headers) : Except BusError HttpResponse :=
  match target.invoker (target.request body headers) with
  | .error error => .error error
  | .ok response =>
      if IsSuccess response then .ok response
      else .error (.backend (.http response))

def encode
    (target : HttpTarget Ser De) (ser : Ser Value)
    (value : Value) (message : RouteMessage) :
    Except BusError RouteMessage :=
  match target.codec.encode ser value with
  | .error error => .error error
  | .ok payload =>
      .ok
        { message with
          payload := payload
          headers :=
            Headers.setContentType message.headers
              target.codec.contentType }

def deliver
    (target : HttpTarget Ser De) (output : RouteMessage) :
    Except BusError Unit :=
  (target.send output.payload
    (output.headers.erase replyToHeader)).map (fun _ => ())

def toRouteTarget
    (target : HttpTarget Ser De) (ser : Ser Value) :
    RouteTarget Value where
  encode := fun value message =>
    some (target.encode ser value message)
  deliver := fun output => some (target.deliver output)

/- Only a content type is added to the headers. -/
theorem lookup_request
    {name : String}
    (hName : Headers.IsContentType name = false)
    (target : HttpTarget Ser De) (body : Bytes)
    (headers : Headers) :
    (target.request body headers).headers.lookup name =
      headers.lookup name := by
  have hNe : name ≠ "content-type" := by
    rintro rfl
    rw [Headers.isContentType_canonical] at hName
    cases hName
  unfold request
  dsimp only
  split
  · rfl
  · exact AList.lookup_insert_ne hNe

/- Only the content type of a message changes. -/
theorem lookup_of_encode
    {target : HttpTarget Ser De} {ser : Ser Value}
    {value : Value} {message encoded : RouteMessage}
    {name : String}
    (hEncode :
      target.encode ser value message = .ok encoded)
    (hName : Headers.IsContentType name = false) :
    encoded.headers.lookup name =
      message.headers.lookup name := by
  unfold encode at hEncode
  split at hEncode
  · cases hEncode
  · cases hEncode
    exact Headers.lookup_setContentType hName

end HttpTarget

end Http

end Qanat
