namespace LispCore

/-- A name. Two symbols are the same symbol exactly when they have the same text. -/
structure Symbol where
  name : String
deriving DecidableEq, Inhabited

end LispCore
