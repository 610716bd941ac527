import ImageRefs.Image.Format
import ImageRefs.Options.Json
import ImageRefs.Text.Utf8

/-!
# Files

Images and options come from files.  The contents of a file are bytes, or nothing if it
cannot be read.  A file with an image is taken only up to a limit on its size.
-/

namespace ImageRefs

/-- Why a file gives no image or no options. -/
inductive FileError where
  | image (error : ImageError)
  | tooLarge (size limit : Nat)
  | unreadable
  | options
  | unsupported
  deriving Repr, DecidableEq

/-- The text of the error. -/
def FileError.message : FileError → String
  | .image error => "Invalid PE image: " ++ error.message
  | .tooLarge size limit =>
    s!"I/O error: File size of {size} bytes exceeds the maximum allowed size of {limit} bytes."
  | .unreadable => "I/O error: the file cannot be read"
  | .options => "Configuration error: the text gives no options"
  | .unsupported => "Unsupported executable format"

/-- The limit on the size of image files, unless another is given: 512 MiB. -/
def defaultFileLimit : Nat := 512 * 1024 * 1024

namespace Image

/-- The bytes of an image file. -/
def load (limit : Nat) (contents : Option Bytes) : Except FileError Bytes :=
  match contents with
  | none => .error .unreadable
  | some data => if limit < data.size then .error (.tooLarge data.size limit) else .ok data

/-- The image that bytes hold, or the error that their format is not supported. -/
def recognise (options : Options) (data : Bytes) : Except FileError Image :=
  match ofBytes? options data with
  | none => .error .unsupported
  | some image => .ok image

end Image

namespace Options

/-- The options that a text gives. -/
def ofText (text : String) : Except FileError Options :=
  match ofText? text with
  | none => .error .options
  | some options => .ok options

/-- The options that a file with UTF-8 text gives. -/
def ofFile (contents : Option Bytes) : Except FileError Options :=
  match contents.bind fun data => Utf8.decode? data.toList with
  | none => .error .options
  | some text => ofText (String.ofList text)

end Options

end ImageRefs
