import RegisterMap.Model.Encoding
import RegisterMap.Text.Format
import RegisterMap.Yaml.Writer

/-!
# Rendering a Model

A model is written out as indented JSON or as YAML.
-/

namespace RegisterMap

namespace Model

/-- The **text of a model** in a format, which is JSON if none is given. -/
def render (m : Model) (format : Option String) : Except UnknownFormat String :=
  match format.getD "json" with
  | "json" => .ok (m.toJson.indented ++ "\n")
  | "yaml" => .ok (Yaml.write m.toJson)
  | name => .error { what := "output", name, choices := ["json", "yaml"] }

end Model

end RegisterMap
