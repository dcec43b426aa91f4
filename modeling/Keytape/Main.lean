import Keytape.Program

/-! The command line. -/

set_option autoImplicit false

namespace Keytape.Main

def seedOf (bytes : ByteArray) : UInt64 :=
  bytes.foldl (fun n b => n * 256 + b.toUInt64) 0

partial def readAll (stream : IO.FS.Stream) (bytes : ByteArray) : IO ByteArray := do
  let chunk ← stream.read 65536
  if chunk.isEmpty then return bytes else readAll stream (bytes ++ chunk)

/-- What the process was started in. Input is read only where the run looks at it. -/
def surroundings (args : List String) : IO Surroundings := do
  let onTerminal ← (← IO.getStdout).isTty
  let stdin ← if Program.readsInput args then readAll (← IO.getStdin) .empty else pure .empty
  return {
    stdin := stdin.toList
    onTerminal := onTerminal
    allowsEmphasis := Text.allowsEmphasis onTerminal (← IO.getEnv "NO_COLOR") (← IO.getEnv "TERM")
      (← IO.getEnv "CLICOLOR") (← IO.getEnv "CLICOLOR_FORCE")
    draws := .ofSeed (seedOf (← IO.getRandomBytes 8)) }

end Keytape.Main

def main (args : List String) : IO UInt32 := do
  let exit := Keytape.Program.run args (← Keytape.Main.surroundings args)
  IO.print exit.stdout
  IO.eprint exit.stderr
  return exit.code
