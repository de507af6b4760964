import NutContainer.Medium

/-!
Every reason for which a call can be refused. A fault is recorded by its cause;
its text for the user is derived from the cause in one place. Faults fall into
four categories that tell a caller what is lost: a description can be mended, a
frame can be dropped, an output must be thrown away, a call came out of turn.

A call that is refused gives an answer. One that crashes does not: numbers are
exact here, and where one of them leaves the word that has to hold it, the
program stops.
-/
namespace NutContainer

/-- Why an argument is unusable. -/
inductive ArgumentFault where
  /-- The distance between sync points is zero or above the limit. -/
  | syncDistance (limit given : Nat)
  /-- A picture without area. -/
  | imageSize (width height : Nat)
  /-- Rows would overlap. -/
  | stride (given rowSize : Nat)
  /-- Too few bytes for the last row. -/
  | imageData (required given : Nat)
  /-- A reason given from outside. -/
  | other (text : String)
  deriving DecidableEq, Repr

namespace ArgumentFault

def message : ArgumentFault → String
  | syncDistance limit given => s!"max_distance 必须在 1..={limit} 范围内, 实际为 {given}"
  | imageSize width height => s!"图像尺寸无效: {width}x{height}"
  | stride given rowSize => s!"行间距 {given} 小于一行像素字节数 {rowSize}"
  | imageData required given => s!"图像数据不足: 需要 {required} 字节, 实际 {given} 字节"
  | other text => text

end ArgumentFault

/-- Why a field of a stream description is unusable although it is there. -/
inductive FieldFault where
  | notPositive
  /-- The clock rate does not fit the format. -/
  | rateTooHigh (limit given : Nat)
  | other (text : String)
  deriving DecidableEq, Repr

namespace FieldFault

def message : FieldFault → String
  | notPositive => "必须为正数"
  | rateTooHigh limit given => s!"{given} 超出上限 {limit}"
  | other text => text

end FieldFault

/-- Why a picture could not be coded. -/
inductive CodingFault where
  /-- A row lies outside the picture's bytes. -/
  | missingRow (row size stride : Nat)
  /-- The coded picture does not fill its frame exactly. -/
  | wrongSize (stream : UInt32) (given expected : Nat)
  | other (text : String)
  deriving DecidableEq, Repr

namespace CodingFault

def message : CodingFault → String
  | missingRow row size stride => s!"第 {row} 行超出图像数据范围 ({size} 字节, stride {stride})"
  | wrongSize stream given expected => s!"流 {stream} 编码后长度 {given} 与期望的 {expected} 字节不符"
  | other text => text

end CodingFault

/-- Why a call is refused. -/
inductive Fault where
  | noStreams
  /-- A stream number differs from its place in the list. -/
  | misplacedStream (index : Nat) (found : UInt32)
  | missingField (stream : UInt32) (field : String)
  | invalidField (stream : UInt32) (field : String) (reason : FieldFault)
  | unsupportedMedium (stream : UInt32) (medium : Medium)
  | emptyPayload (stream : UInt32)
  | invalidArgument (reason : ArgumentFault)
  | unknownStream (stream : UInt32)
  | payloadMismatch (stream : UInt32) (expected actual : String)
  | imageSize (stream : UInt32) (expectedWidth expectedHeight width height : UInt32)
  | imageCoding (reason : CodingFault)
  | invalidTimestamp (stream : UInt32) (pts : Int)
  /-- The sink refused bytes or a flush, with its own words. -/
  | output (reason : String)
  | wrongPhase (operation phase : String)
  deriving DecidableEq, Repr

namespace Fault

/-- What a fault means for the caller. -/
inductive Category where
  /-- A description or an argument is wrong. -/
  | validation
  /-- One frame cannot take its byte form. -/
  | conversion
  /-- The sink failed; what it holds is cut off. -/
  | output
  /-- The call came out of turn. -/
  | phase
  deriving DecidableEq, Repr

def category : Fault → Category
  | noStreams | misplacedStream .. | missingField .. | invalidField .. | unsupportedMedium ..
  | emptyPayload .. | invalidArgument .. => .validation
  | unknownStream .. | payloadMismatch .. | imageSize .. | imageCoding ..
  | invalidTimestamp .. => .conversion
  | output .. => .output
  | wrongPhase .. => .phase

/-- The text of a fault for the user. -/
def message : Fault → String
  | noStreams => "流列表为空, 至少需要一条流"
  | misplacedStream index found => s!"流 ID 必须从 0 开始连续递增: 索引 {index} 处的流 ID 为 {found}"
  | missingField stream field => s!"流 {stream} 缺少必需字段: {field}"
  | invalidField stream field reason => s!"流 {stream} 的字段 {field} 无效: {reason.message}"
  | unsupportedMedium stream medium => s!"流 {stream} 的媒体类型不受支持: {medium.label}"
  | emptyPayload stream => s!"流 {stream} 的帧负载为空"
  | invalidArgument reason => s!"无效参数: {reason.message}"
  | unknownStream stream => s!"帧引用了不存在的流: {stream}"
  | payloadMismatch stream expected actual =>
    s!"流 {stream} 的负载类型不匹配: 期望 {expected}, 实际 {actual}"
  | imageSize stream expectedWidth expectedHeight width height =>
    s!"流 {stream} 的图像尺寸不匹配: 期望 {expectedWidth}x{expectedHeight}, 实际 {width}x{height}"
  | imageCoding reason => s!"图像编码失败: {reason.message}"
  | invalidTimestamp stream pts => s!"流 {stream} 的时间戳无效: {pts}"
  | output reason => s!"I/O 错误: {reason}"
  | wrongPhase operation phase => s!"非法状态: 不允许在 {phase} 状态下调用 {operation}"

end Fault

/-- Why an action does not come to its end. -/
inductive Failure where
  /-- The call is refused, and says why. -/
  | refused (fault : Fault)
  /-- A number has left the range of its word, or something was divided by zero. -/
  | crash
  deriving DecidableEq, Repr

namespace Failure

/-- A result that can only be refused. -/
def ofRefusal (result : Except Fault α) : Except Failure α := result.mapError .refused

@[simp] theorem ofRefusal_ok (value : α) : ofRefusal (.ok value) = .ok value := rfl

@[simp] theorem ofRefusal_error (fault : Fault) :
    ofRefusal (.error fault : Except Fault α) = .error (.refused fault) := rfl

/-- A number that a word of 64 bits has to hold. -/
def inWord (number : Nat) : Except Failure Nat :=
  if number < UInt64.size then .ok number else .error .crash

theorem inWord_of_lt {number : Nat} (fits : number < UInt64.size) : inWord number = .ok number :=
  if_pos fits

theorem inWord_of_le {number : Nat} (beyond : UInt64.size ≤ number) :
    inWord number = .error .crash :=
  if_neg (Nat.not_lt.mpr beyond)

end Failure

end NutContainer
