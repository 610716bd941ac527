import ImageRefs.Image.Basic
import ImageRefs.Json.Print

/-!
# Formats

The format of an image is told by its magic number alone; whether the image can be taken
apart is another question.  `Image.ofBytes?` asks both, for 32-bit images first.
-/

namespace ImageRefs

open Json

namespace Width

/-- Both widths, in the order in which they are tried. -/
def all : List Width := [.bits32, .bits64]

/-- The name of the format of images of this width in running text. -/
def formatName : Width → String
  | .bits32 => "Windows PE x86"
  | .bits64 => "Windows PE x64"

/-- The name of the format of images of this width in data. -/
def formatTag : Width → String
  | .bits32 => "Win32X86"
  | .bits64 => "Win32X64"

/-- A list of formats as JSON text. -/
def listText (widths : List Width) : String :=
  String.ofList (Value.array (widths.map fun w => .text w.formatTag)).compact

/-- Whether the magic number is that of images of this width. -/
def isProbed (w : Width) (data : Bytes) : Bool :=
  probeMagic data == some w.magic

/-- The width of an image by its magic number. -/
def detect? (data : Bytes) : Option Width :=
  all.find? (·.isProbed data)

end Width

namespace Image

/-- The image of a given width that bytes hold, if its magic number tells so and it can be
taken apart. -/
def ofWidth? (width : Width) (options : Options) (data : Bytes) : Option Image :=
  if width.isProbed data then (parse width options data).toOption else none

/-- The image that bytes hold. -/
def ofBytes? (options : Options) (data : Bytes) : Option Image :=
  Width.all.findSome? fun width => ofWidth? width options data

end Image

end ImageRefs
