import ChainGateway.Wire.OnWire

namespace ChainGateway.Rpc

open Wire

def version : String := "2.0"

structure Request where
  method : String
  params : List Json
  id : RequestId
  jsonrpc : String

namespace Request

instance : OnWire Request where
  shape := .record "JsonRpcRequest" <|
    .cons "method" .required .text <|
    .cons "params" .required (.list .value) <|
    .cons "id" .required .requestId <|
    .cons "jsonrpc" .required .text .nil
  pack r := (r.method, r.params, r.id, r.jsonrpc, ())
  unpack | (method, params, id, jsonrpc, ()) => ⟨method, params, id, jsonrpc⟩

def numbered (id : Word 64) (method : String) (params : List Json) : Request :=
  ⟨method, params, .number id, version⟩

end Request

/-- The error object of a reply. A code of zero means that there is no error. -/
structure NodeError where
  code : SignedWord
  message : String
  data : Option Json

namespace NodeError

instance : OnWire NodeError where
  shape := .record "JsonRpcError" <|
    .cons "code" .defaulted .signed <|
    .cons "message" .defaulted .text <|
    .cons "data" .omittable (.nullable .value) .nil
  pack e := (e.code, e.message, e.data, ())
  unpack | (code, message, data, ()) => ⟨code, message, data⟩

def text (e : NodeError) : String :=
  "JSON-RPC error " ++ toString e.code.toInt ++ ": " ++ e.message

end NodeError

structure Response where
  id : RequestId
  jsonrpc : String
  message : Option String
  result : Option Json
  error : Option NodeError

namespace Response

instance : OnWire Response where
  shape := .record "JsonRpcResponse" <|
    .cons "id" .defaulted .requestId <|
    .cons "jsonrpc" .defaulted .text <|
    .cons "message" .omittable (.nullable .text) <|
    .cons "result" .omittable (.nullable .value) <|
    .cons "error" .omittable (.nullable (OnWire.shape NodeError)) .nil
  pack r := (r.id, r.jsonrpc, r.message, r.result, r.error.map OnWire.pack, ())
  unpack
    | (id, jsonrpc, message, result, error, ()) =>
      ⟨id, jsonrpc, message, result, error.map OnWire.unpack⟩

def success (id : RequestId) (result : Json) : Response :=
  ⟨id, version, none, some result, none⟩

def failure (id : RequestId) (error : NodeError) : Response :=
  ⟨id, version, none, none, some error⟩

/-- The error that the node reports, which has a code other than zero. -/
def nodeError? (r : Response) : Option NodeError :=
  r.error.filter (·.code.toInt ≠ 0)

def result? (r : Response) : Option Json :=
  r.result.filter (! ·.isNull)

def isOk (r : Response) : Bool :=
  r.nodeError?.isNone && r.result?.isSome

end Response

end ChainGateway.Rpc
