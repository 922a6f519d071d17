namespace ChainGateway.Rpc

inductive Method where
  | getBalance
  | addBalance
  | getUtxos
  | sendRawTransaction
  | crossSend
deriving DecidableEq, Repr

namespace Method

def all : List Method := [getBalance, addBalance, getUtxos, sendRawTransaction, crossSend]

def name : Method → String
  | getBalance => "qng_getBalance"
  | addBalance => "qng_addBalance"
  | getUtxos => "qng_getUTXOs"
  | sendRawTransaction => "qng_sendRawTransaction"
  | crossSend => "qng_crossSend"

def ofName? (s : String) : Option Method := all.find? (·.name = s)

theorem mem_all (m : Method) : m ∈ all := by cases m <;> decide

theorem ofName?_name (m : Method) : ofName? m.name = some m := by cases m <;> decide

end Method

end ChainGateway.Rpc
