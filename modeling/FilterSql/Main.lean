import FilterSql.Command.Run

/-!
# The program

Reads the arguments, the environment variable that names the dialect and, where a request asks for
it, the standard input; writes what the run leaves behind.
-/

namespace FilterSql

/-- What is written when the arguments ask for nothing sensible. -/
def Command.usage : String :=
  "Usage: rulesql compile <TARGET> [--query <QUERY>] [--dialect <DIALECT>] [--verbatim] "
    ++ "[--strict-types]\n       rulesql check [--query <QUERY>] [--ast]\n"
    ++ "       rulesql operators\n"

end FilterSql

open FilterSql

def main (arguments : List String) : IO UInt32 := do
  let environment ← IO.getEnv "RULESQL_DIALECT"
  match Request.ofArguments? environment arguments with
  | none =>
    (← IO.getStderr).putStr Command.usage
    return 2
  | some request =>
    let stdin ← IO.getStdin
    let mut input := none
    if request.needsInput then
      unless ← stdin.isTty do
        input := some (← readAll stdin ByteArray.empty)
    let outcome := request.run input
    (← IO.getStdout).putStr outcome.output
    (← IO.getStderr).putStr outcome.errors
    return outcome.exit.toUInt32
where
  /-- All bytes up to the end of the stream. -/
  readAll (stream : IO.FS.Stream) (bytes : ByteArray) : IO ByteArray := do
    let mut bytes := bytes
    let mut done := false
    while !done do
      let chunk ← stream.read 65536
      if chunk.isEmpty then done := true else bytes := bytes ++ chunk
    return bytes
