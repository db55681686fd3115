/-!
# Documents

A document is what a settings file says, before anyone asks what the settings mean. Of scalar
values only whole numbers are told apart, since every setting is one.
-/
namespace Overlay.Settings

/-- A value as written in a settings file. -/
inductive Document where
  /-- The place of a value was left empty. -/
  | blank
  /-- A whole number. -/
  | integer (value : Int)
  /-- Any other single value. -/
  | scalar
  /-- Values in order. -/
  | list (items : List Document)
  /-- Values in the order written, each with the name that its key gives it. A key that is not a
  single value gives none. -/
  | mapping (entries : List (Option String × Document))
  deriving Repr, Inhabited

end Overlay.Settings
