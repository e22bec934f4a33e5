import Mathlib.Data.List.AList

/-
  The errors of the library and their texts, and the HTTP
  response that one of them carries.

  Main declarations:
    * `Headers`, `Bytes`, `HttpResponse`
    * `BackendError`, `BusError`, `BusError.display`
-/

------------------------------------------------------------
-- Errors
------------------------------------------------------------

namespace Qanat

/- The `HashMap<String, String>` of headers and metadata. -/
abbrev Headers := AList (fun _ : String => String)

/- The contents of `bytes::Bytes`. -/
abbrev Bytes := List UInt8

structure HttpResponse where
  status : UInt16
  headers : Headers
  body : Bytes
deriving DecidableEq

/- The errors of the drivers are kept as their texts. -/
inductive BackendError where
| other (text : String)
| http (response : HttpResponse)
| natsPublish (text : String)
| natsSubscribe (text : String)
| natsFlush (text : String)
| rabbitMq (text : String)
| redis (text : String)
deriving DecidableEq

namespace BackendError

def display : BackendError → String
| .other text => text
| .http response =>
    "HTTP target returned status " ++
      toString response.status.toNat
| .natsPublish text => "NATS publish error: " ++ text
| .natsSubscribe text => "NATS subscribe error: " ++ text
| .natsFlush text => "NATS flush error: " ++ text
| .rabbitMq text => "RabbitMQ error: " ++ text
| .redis text => "Redis error: " ++ text

end BackendError

inductive BusError where
| internal (message : String)
| noRoute (subject : String)
| queueNotFound (queue : String)
| backend (error : BackendError)
| serialization (message : String)
| connection (message : String)
| timeout (message : String)
| backpressure (message : String)
deriving DecidableEq

namespace BusError

def display : BusError → String
| .internal message => "Internal error: " ++ message
| .noRoute subject => "No route for subject: " ++ subject
| .queueNotFound queue => "Queue not found: " ++ queue
| .backend error => "Backend error: " ++ error.display
| .serialization message =>
    "Serialization error: " ++ message
| .connection message => "Connection error: " ++ message
| .timeout message => "Timeout: " ++ message
| .backpressure message => "Backpressure: " ++ message

end BusError

end Qanat
