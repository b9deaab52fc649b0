import StageQp.Storage.Words

/-!
# StageQp.Desk

What a module is handed for its part of a solve.
-/

namespace StageQp

/-- The record a module writes, the persistent region that only it uses, and
scratch words that carry nothing from one call to the next. -/
structure Desk (ρ : Type) where
  record : ρ
  region : Words
  work : Words
deriving DecidableEq

end StageQp
