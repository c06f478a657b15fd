import TinyLisp.Console

/-!
# The program

Reads lines from standard input until it ends and answers each as it comes. Records go to the
error output. A fault that the console does not report ends the program.
-/

namespace TinyLisp.Main

/-- Writes out what a session has printed and noted since it was last written out. -/
def flush (settings : Settings) (session : Session) : IO Session := do
  let stdout ← IO.getStdout
  let stderr ← IO.getStderr
  for record in Console.keptRecords settings.threshold settings.depth session.events do
    stderr.putStrLn record.text
  stdout.putStr session.printed
  stdout.flush
  return { session with printed := "", events := [] }

/-- Carries a computation out in a session and writes out what it has done. -/
def carryOut (settings : Settings) (computation : Run Unit) (session : Session) :
    IO (Option Fault × Session) := do
  let (outcome, next) := computation.run.run session
  let written ← flush settings next
  match outcome with
  | .ok () => return (none, written)
  | .error fault => return (some fault, written)

/-- Answers the lines of an input until it ends or a fault ends the conversation. -/
partial def answerAll (settings : Settings) (input : IO.FS.Stream) (session : Session) :
    IO (Option Fault × Session) := do
  let line ← input.getLine
  if line.isEmpty then return (none, session)
  else
    match ← carryOut settings (Console.answer settings line) session with
    | (none, next) => answerAll settings input next
    | ended => return ended

def fail (fault : Fault) : IO UInt32 := do
  (← IO.getStderr).putStrLn (Console.faultReport fault)
  return 1

end TinyLisp.Main

open TinyLisp in
/-- Runs the console on the standard streams. -/
def main : IO UInt32 := do
  let names := [Settings.thresholdVariable, Settings.recursionLimitVariable,
    Settings.promptVariable, Settings.outputPromptVariable]
  let environment ← names.mapM fun name => do return (name, ← IO.getEnv name)
  let settings := Settings.ofVariables fun name => (environment.lookup name).join
  match ← Main.carryOut settings (Console.start settings) Interpreter.initialSession with
  | (some fault, _) => Main.fail fault
  | (none, started) =>
      match ← Main.answerAll settings (← IO.getStdin) started with
      | (some fault, _) => Main.fail fault
      | (none, session) =>
          let _ ← Main.carryOut settings Console.finish session
          return 0
