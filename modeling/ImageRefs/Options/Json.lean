import ImageRefs.Json.Parse
import ImageRefs.Json.Print
import ImageRefs.Options.Basic

/-!
# Options as JSON

Options are written as an object with a member for each option.  In a text that is read,
options that are not given take their defaults, and other members do not count.
-/

namespace ImageRefs

open Json

namespace BranchOptions

/-- The names of the options. -/
def names : List String :=
  ["restrict_jcc_to_section", "rip_relative", "avoid_abs32"]

/-- The options as a value. -/
def toJson (o : BranchOptions) : Value :=
  .record [("restrict_jcc_to_section", .bool o.stayInSection),
    ("rip_relative", .bool o.ripRelative), ("avoid_abs32", .bool o.avoidRelocations)]

/-- The options that a value gives. -/
def ofJson? (v : Value) : Option BranchOptions := do
  let fields ← v.fields? names
  let defaults : BranchOptions := {}
  some {
    stayInSection :=
      ← Value.fieldOr fields "restrict_jcc_to_section" defaults.stayInSection Value.bool?
    ripRelative := ← Value.fieldOr fields "rip_relative" defaults.ripRelative Value.bool?
    avoidRelocations :=
      ← Value.fieldOr fields "avoid_abs32" defaults.avoidRelocations Value.bool?
  }

end BranchOptions

namespace Options

/-- The names of the options. -/
def names : List String :=
  ["max_image_size", "rel32"]

/-- The options as a value. -/
def toJson (o : Options) : Value :=
  .record [("max_image_size", .nat o.maxImageSize), ("rel32", o.branches.toJson)]

/-- The options that a value gives.  The bound on the size of images has 64 bits. -/
def ofJson? (v : Value) : Option Options := do
  let fields ← v.fields? names
  let defaults : Options := {}
  some {
    maxImageSize :=
      ← Value.fieldOr fields "max_image_size" defaults.maxImageSize (Value.nat? space64)
    branches := ← Value.fieldOr fields "rel32" defaults.branches BranchOptions.ofJson?
  }

/-- The text of the options, with one option to a line. -/
def toText (o : Options) : String :=
  String.ofList o.toJson.pretty

/-- The options that a text gives. -/
def ofText? (text : String) : Option Options :=
  (parse? text.toList).bind ofJson?

end Options

end ImageRefs
