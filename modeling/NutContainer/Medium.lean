/-!
The kinds of content that a stream can be described with. Only pictures and
sound can be laid down; the other two exist so that a description naming them
can be refused by name.
-/
namespace NutContainer

/-- What a stream carries. -/
inductive Medium where
  | video
  | audio
  | subtitle
  | data
  deriving DecidableEq, Repr

namespace Medium

/-- The word for a medium in descriptions. -/
def name : Medium → String
  | video => "video"
  | audio => "audio"
  | subtitle => "subtitle"
  | data => "data"

/-- The medium that a word stands for. -/
def ofName? (name : String) : Option Medium :=
  [video, audio, subtitle, data].find? (·.name == name)

/-- The word for a medium in messages to the user. -/
def label : Medium → String
  | video => "视频"
  | audio => "音频"
  | subtitle => "字幕"
  | data => "数据"

end Medium

end NutContainer
