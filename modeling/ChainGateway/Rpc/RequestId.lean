import ChainGateway.Word

namespace ChainGateway.Rpc

inductive RequestId where
  | number (n : Word 64)
  | string (s : String)
  | null
deriving DecidableEq, Repr

instance : Inhabited RequestId := ⟨.null⟩

def RequestId.text : RequestId → String
  | number n => toString n.toNat
  | string s => s
  | null => "null"

end ChainGateway.Rpc
