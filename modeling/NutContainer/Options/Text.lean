import NutContainer.Json.Record
import NutContainer.Options

/-!
The options of a session as JSON. They are printed in a fixed order with nothing
left out, and read with anything left out.
-/
namespace NutContainer.Options

/-- The names of the options, in order. -/
def names : List String :=
  ["frame_ordering_buffer_millis", "generate_images", "max_distance", "max_pts_distance",
    "write_index"]

/-- Options from a JSON value. -/
def ofJson? (json : Json) : Option Options := do
  let fields ← json.fields? names
  let defaults : Options := {}
  return {
    windowMillis :=
      ← Json.field? fields "frame_ordering_buffer_millis" (Json.natBelow? UInt64.size)
        defaults.windowMillis
    generateImages := ← Json.field? fields "generate_images" Json.bool? defaults.generateImages
    maxDistance := ← Json.field? fields "max_distance" Json.word32? defaults.maxDistance
    maxPtsDistance := ← Json.field? fields "max_pts_distance" Json.word32? defaults.maxPtsDistance
    writeIndex := ← Json.field? fields "write_index" Json.bool? defaults.writeIndex }

/-- Options from a JSON text. -/
def parse? (text : String) : Option Options := do ofJson? (← Json.parse? text)

def toJson (options : Options) : Json :=
  .record [
    ("frame_ordering_buffer_millis", .ofNat options.windowMillis),
    ("generate_images", .bool options.generateImages),
    ("max_distance", .ofNat options.maxDistance.toNat),
    ("max_pts_distance", .ofNat options.maxPtsDistance.toNat),
    ("write_index", .bool options.writeIndex)]

/-- Options as a JSON text. -/
def toText (options : Options) : String := options.toJson.render

end NutContainer.Options
