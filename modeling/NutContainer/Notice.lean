/-!
What the library has to say while it works, apart from results. A notice is
recorded by what happened; how urgent it is and how it reads follow from that.
Notices never influence what is written.
-/
namespace NutContainer

/-- How urgent a notice is. -/
inductive Urgency where
  | warn
  | info
  | debug
  | trace
  deriving DecidableEq, Repr

namespace Urgency

/-- The rank of an urgency; lower is more urgent. -/
def rank : Urgency → Nat
  | warn => 0
  | info => 1
  | debug => 2
  | trace => 3

def name : Urgency → String
  | warn => "WARN"
  | info => "INFO"
  | debug => "DEBUG"
  | trace => "TRACE"

end Urgency

/-- Something that happened. -/
inductive Notice where
  /-- The headers are out. -/
  | headersWritten (streams position : Nat)
  /-- A sync point is out, with its number counted from one. -/
  | syncpointWritten (number position : Nat)
  | frameWritten (stream : UInt32) (pts size position : Nat)
  | indexWritten (syncpoints size : Nat)
  /-- Raw video of a size that no picture of the stream has. -/
  | oddBufferSize (stream : UInt32) (size : Nat) (width height : UInt32) (expected : Nat)
  /-- Samples that do not fill all channels. -/
  | unevenSamples (stream : UInt32) (count : Nat) (channels : UInt32)
  /-- A frame that came too late to be put in order. -/
  | frameLate (stream : UInt32) (pts millis lastMillis window : Int)
  /-- Frames that were still held back when the session closed. -/
  | drained (frames : Nat)
  | sessionClosed (frames syncpoints size : Nat)
  deriving DecidableEq, Repr

namespace Notice

def urgency : Notice → Urgency
  | oddBufferSize .. | unevenSamples .. | frameLate .. => .warn
  | sessionClosed .. => .info
  | headersWritten .. | indexWritten .. | drained .. => .debug
  | syncpointWritten .. | frameWritten .. => .trace

def message : Notice → String
  | headersWritten streams position => s!"NUT: 头部已写入, {streams} 条流, {position} 字节"
  | syncpointWritten number position => s!"NUT: 同步点 #{number} pos={position}"
  | frameWritten stream pts size position =>
    s!"NUT: 帧 stream={stream} pts={pts} size={size} pos={position}"
  | indexWritten syncpoints size => s!"NUT: 索引已写入, {syncpoints} 个同步点, {size} 字节"
  | oddBufferSize stream size width height expected =>
    s!"流 {stream} 的原始视频帧长度 {size} 与 {width}x{height} 的帧大小 {expected} 不符, 按原样写入"
  | unevenSamples stream count channels => s!"流 {stream} 的采样数 {count} 不是声道数 {channels} 的整数倍"
  | frameLate stream pts millis lastMillis window =>
    s!"流 {stream} pts={pts} ({millis}ms) 晚于已写出的 {lastMillis}ms, 超出重排序窗口 {window}ms, 按原样写出"
  | drained frames => s!"NUT: 关闭时写出 {frames} 个缓冲帧"
  | sessionClosed frames syncpoints size =>
    s!"NUT: 封装完成, {frames} 帧, {syncpoints} 个同步点, {size} 字节"

end Notice

end NutContainer
