import NutContainer.Image

/-!
Codings that turn a picture into the bytes of a video frame. A session takes any
coding; the packed ones defined here store pixels row by row without padding, in
the layout they are named for.
-/
namespace NutContainer

/-- A coding of pictures, with the tag that announces it. -/
structure ImageFormat where
  fourcc : FourCC
  /-- The layout that decides the size of a frame. -/
  pixelFormat : PixelFormat
  encode : Image → Except Fault Bytes

namespace ImageFormat

/-- The bytes of a row in another layout. A row that is in the right layout
stays as it is. -/
def convertRow (source target : PixelFormat) (row : Bytes) : Bytes :=
  if source = target then row else (source.pixels row).flatMap target.encode

/-- One row of a picture in the target layout. -/
def packedRow (target : PixelFormat) (image : Image) (y : Nat) : Except Fault Bytes :=
  match image.row? y with
  | some row => .ok (convertRow image.format target row)
  | none => .error (.imageCoding (.missingRow y image.data.size image.stride))

/-- All rows of a picture in the target layout, top to bottom. -/
def packedBytes (target : PixelFormat) (image : Image) : Except Fault Bytes := do
  let rows ← (List.range image.height.toNat).mapM (packedRow target image)
  return rows.flatten

/-- The coding that stores pixels in the target layout. -/
def packed (target : PixelFormat) : ImageFormat := ⟨target.fourcc, target, packedBytes target⟩

/-- The layout that is used when none is asked for. -/
def defaultLayout : PixelFormat := .bgr24

/-- The coding that is used when none is asked for. -/
def standard : ImageFormat := packed defaultLayout

end ImageFormat

end NutContainer
