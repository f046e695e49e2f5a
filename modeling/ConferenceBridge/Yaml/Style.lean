/-! The ways in which YAML writes a word. -/

namespace ConferenceBridge.Yaml

/-- How a scalar is written. -/
inductive Style where
  | plain
  | singleQuoted
  | doubleQuoted
  | literal
  | folded
  deriving DecidableEq

end ConferenceBridge.Yaml
