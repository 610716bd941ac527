import ImageRefs.Header.Nt
import ImageRefs.Options.Basic
import ImageRefs.Section.Table
import ImageRefs.Address.Space

/-!
# Images

An image is a portable executable whose headers have been read and whose sections have
been checked.  It keeps the bytes that its headers and sections take up; what follows them
in the file is no part of it.
-/

namespace ImageRefs

/-- An executable image of a given width. -/
structure Image where
  width : Width
  options : Options
  /-- The bytes that the headers and the sections take up. -/
  bytes : Bytes
  sections : List Section
  imageBase : Nat
  /-- Where the base relocation table is loaded, if there is one. -/
  relocationDirectory : Option DataDirectory
  loadMap : LoadMap
  deriving Repr, DecidableEq

namespace Image

/-- The image that the bytes of a file hold, if it is one of the given width. -/
def parse (width : Width) (options : Options) (data : Bytes) : Except ImageError Image :=
  if options.imageSizeLimit < data.size then
    .error (.tooLarge data.size options.imageSizeLimit)
  else do
    let dos ← DosHeader.read data
    let nt ← NtHeaders.read data dos.ntOffset
    if nt.optional.width = width then
      let sections ← Section.readTable data nt.sectionTableOffset nt.coff.sectionCount
      let layout ← Layout.ofSections sections data.size nt.optional.sizeOfImage
      let loadMap ← (LoadMap.ofMappings layout.mappings).mapError .mapping
      let headersEnd := nt.sectionTableOffset + nt.coff.sectionCount * sectionHeaderSize
      .ok {
        width := width
        options := options
        bytes := data.extract 0 (max headersEnd layout.bound)
        sections := sections
        imageBase := nt.optional.imageBase
        relocationDirectory := nt.directory? DataDirectory.baseRelocationIndex
        loadMap := loadMap
      }
    else
      .error (.wrongMagic nt.optional.width.magic)

/-- The number of bytes that the headers and the sections take up. -/
def size (image : Image) : Nat :=
  image.bytes.size

/-- Where the image is loaded, and at which absolute addresses. -/
def addressSpace (image : Image) : AddressSpace :=
  AddressSpace.ofBase image.width image.loadMap image.imageBase

/-- The sections that are scanned for branches. -/
def codeSections (image : Image) : List Section :=
  image.sections.filter Section.isCode

end Image

end ImageRefs
