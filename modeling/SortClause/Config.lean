import SortClause.Renderer
/-!
How directives are read and sort clauses written: two separators, a parser and a renderer.  A
configuration is built from the defaults by overrides, applied from the first to the last, so that
of several for one slot the last one counts.  Separators are taken as they stand, the empty one
too; an override without a parser or renderer goes back to the standard one.
-/
namespace SortClause

/-- The separators and the two replaceable steps; `none` stands for the standard one. -/
structure Config where
  sourceSeparator : Text := [',']
  targetSeparator : Text := [',', ' ']
  parser? : Option RequestParser := none
  renderer? : Option Renderer := none

/-- A new value for one slot of a configuration. -/
inductive Override where
  | sourceSeparator (σ : Text)
  | targetSeparator (τ : Text)
  | parser (p : Option RequestParser)
  | renderer (r : Option Renderer)

namespace Config

instance : Inhabited Config := ⟨{}⟩

/-- The configuration with one slot replaced. -/
def override (c : Config) : Override → Config
  | .sourceSeparator σ => { c with sourceSeparator := σ }
  | .targetSeparator τ => { c with targetSeparator := τ }
  | .parser p => { c with parser? := p }
  | .renderer r => { c with renderer? := r }

/-- The defaults with the overrides that are present, from the first to the last. -/
def ofOverrides (items : List (Option Override)) : Config :=
  (items.filterMap id).foldl override {}

/-- The parser in use. -/
def parse (c : Config) : RequestParser := c.parser?.getD Request.standardParser

/-- The renderer in use. -/
def render (c : Config) : Renderer := c.renderer?.getD Renderer.standard

end Config
end SortClause
