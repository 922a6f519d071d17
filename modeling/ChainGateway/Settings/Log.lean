import ChainGateway.OrderedMap
import ChainGateway.Yaml.Reading

namespace ChainGateway

structure LogSettings where
  level : String
  components : OrderedMap String String
  json : Bool
deriving DecidableEq

namespace LogSettings

def defaultLevel : String := "warn"

instance : Inhabited LogSettings := ⟨⟨defaultLevel, OrderedMap.empty, false⟩⟩

def moduleName (component : String) : String :=
  String.ofList (component.toList.map fun c => if c = '-' then '_' else c)

def directives (s : LogSettings) : String :=
  s.level ++ String.join
    (s.components.entries.map fun (component, level) => "," ++ moduleName component ++ "=" ++ level)

/-- The levels of components; of a component that is named twice the last level counts. -/
def componentsOfNode? (d : Yaml.Document) (node : Yaml.Node) :
    Option (OrderedMap String String) := do
  let entries ← d.entries? node
  let levels ← entries.mapM fun (component, v) => do return (component, ← d.text? v)
  return OrderedMap.ofList levels

def ofNode? (d : Yaml.Document) (node : Yaml.Node) : Option LogSettings := do
  let entries ← d.entries? node
  let level ← Yaml.Document.field? d.text? defaultLevel "level" entries
  let components ← Yaml.Document.field? (componentsOfNode? d) OrderedMap.empty "components" entries
  let json ← Yaml.Document.field? d.flag? false "json" entries
  return ⟨level, components, json⟩

end LogSettings

end ChainGateway
