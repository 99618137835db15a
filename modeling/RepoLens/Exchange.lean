import RepoLens.Command
import RepoLens.Text.Quoted
/-!
The exchange with whoever runs git. A command goes out as one line of quoted words. A reply comes in as one line: the
exit code, the output and the error output, with commas between them and the two outputs as hexadecimal bytes; or one
word for an executable that is missing or may not be started.
-/
namespace RepoLens.Exchange

/-- a command as a line -/
def line (words : List Text) : Text := Text.joinWith [' '] (words.map Text.quoted)

/-- bytes from pairs of hexadecimal digits -/
def bytes? : Text → Option (List UInt8)
  | [] => some []
  | [_] => none
  | c :: d :: r => do
    let high ← Text.hexValue? c
    let low ← Text.hexValue? d
    let rest ← bytes? r
    pure (UInt8.ofNat (16 * high + low) :: rest)

def nat? (t : Text) : Option Nat :=
  if !t.isEmpty && t.all Char.isDigit then some (t.foldl (fun n c => 10 * n + (c.toNat - 48)) 0) else none

/-- an exit code, which is negative for a command that was stopped -/
def code? : Text → Option Int
  | [] => none
  | c :: r => if c = '-' then (nat? r).map fun n => -(n : Int) else (nat? (c :: r)).map Int.ofNat

def reply? (t : Text) : Option Reply :=
  match Text.cutAt (· = ',') t.trim with
  | [word] => if word = "missing" then some .missing else if word = "denied" then some .denied else none
  | [code, out, err] => do pure (.output (← bytes? out) (← bytes? err) (← code? code))
  | _ => none

end RepoLens.Exchange
