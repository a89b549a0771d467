import SectionIndex.Json.Parser
import SectionIndex.Service.Rpc

/-!
# Calls over standard input

Each line of the input is one message, and each reply is one line of the output. Blank lines are
passed over, and a line that is not JSON is answered by a parse error. A line that cannot be read,
and one whose reply cannot be written, ends the service; that a line of output is refused by whoever
reads it is not among what can happen here.

## Main definitions

* `Stdio.answerLine` — the reply to a line.
* `Stdio.serve` — the replies to all lines.
-/

namespace SectionIndex

namespace Stdio

/-- The reply to a message in which brackets stand at most `depth` deep. Deeper ones and a number of
too many digits are faults. -/
def answerMessage (context : Context) (depth : Nat) (message : Points) : Except Fault Rpc.Reply :=
  match Json.parse depth message with
  | .ok value => .ok (Rpc.answer context value)
  | .error .malformed => .ok (.single (.problem .null .parseError))
  | .error (.numberTooLong digits) => .error (.numberTooLong (some digits))
  | .error (.tooDeep bracket) => .error (.tooDeep bracket)

/-- The line of a reply, without its end; none if nothing is sent. Brackets that stand deeper than
`depth` are a fault. -/
def replyLine (depth : Nat) (reply : Rpc.Reply) : Except Fault (Option Text) :=
  match reply.toJson? with
  | none => .ok none
  | some value => if value.nesting ≤ depth then .ok (some value.render) else .error .tooDeepToWrite

/-- **The line that answers a line**, without its end; none if nothing is sent. -/
def answerLine (context : Context) (depths : Rpc.Depths) (line : Text) :
    Except Fault (Option Text) :=
  if line.strip = [] then .ok none
  else do
    let reply ← answerMessage context depths.reading line.strip
    replyLine depths.writing reply

/-- The lines that answer lines. The first fault ends the service. -/
def answerLines (context : Context) (depths : Rpc.Depths) :
    List Text → Except Fault (List Text)
  | [] => .ok []
  | line :: lines => do
    let reply ← answerLine context depths line
    let replies ← answerLines context depths lines
    return reply.toList ++ replies

/-- **The lines that answer an input.** -/
def serve (context : Context) (depths : Rpc.Depths) (input : Text) : Except Fault (List Text) :=
  answerLines context depths (input.splitOn '\n')

end Stdio

end SectionIndex
