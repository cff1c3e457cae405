import ModelStore.Store.Call
import ModelStore.Store.Reply

/-! What a call comes to. It cannot be made at all, it is made and gets no answer, or it is
answered. An answer comes with the path that was asked, as messages show it. -/

namespace ModelStore

inductive Exchange where
  | refused (f : Fault)
  | failed (f : TransportFault)
  | answered (path : String) (a : Answer)

namespace Exchange

def accepted (c : Call) : Exchange → Except Fault Answer
  | refused f => .error f
  | failed f => .error (.transport f)
  | answered path a => if a.isError then .error (a.failure c.method path) else .ok a

def value (c : Call) (x : Exchange) : Except Fault Value := do
  let a ← x.accepted c
  match a.body with
  | .ok v => .ok v
  | .error .tooDeep => .error (.shape .tooNested)
  | .error .malformed => .error (.protocol (.notJson c.method c.path) none)

end Exchange

end ModelStore
