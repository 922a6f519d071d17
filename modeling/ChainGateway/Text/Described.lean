import ChainGateway.Text.Quoted

namespace ChainGateway.Text

structure Described where
  name : String
  parts : List (String × String)

namespace Described

def inline (d : Described) : String :=
  d.name ++ " \x7b " ++ ", ".intercalate (d.parts.map fun (k, v) => k ++ ": " ++ v) ++ " \x7d"

def block (d : Described) : String :=
  d.name ++ " \x7b\n" ++ String.join (d.parts.map fun (k, v) => "    " ++ k ++ ": " ++ v ++ ",\n")
    ++ "\x7d"

end Described

end ChainGateway.Text
