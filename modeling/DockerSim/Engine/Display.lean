import DockerSim.Binary64.Decimal
import DockerSim.ImageName
import DockerSim.Supply
import DockerSim.Text

/-!
# What is shown

Columns, sizes and the last lines of a log, as the listing commands print them, and what a container
prints when it starts. Nothing is run, so these are a few fixed lines, chosen by what the image
looks like.
-/

namespace DockerSim

namespace Display

/-- The first `width` characters of a text. -/
def truncate (s : String) (width : Nat) : String := Text.take width s

/-- A text at the left of a column; longer text is kept whole. -/
def pad (s : String) (width : Nat) : String := Text.padEnd width s

/-- A size in decimal units: gigabytes with two places, or mega- or kilobytes with one. -/
def size (bytes : Nat) : String :=
  let scaled (unit places : Nat) : String :=
    .ofList (Binary64.fixed places ((Binary64.ofNat bytes).div (.ofNat unit)))
  if 1000000000 ≤ bytes then scaled 1000000000 2 ++ "GB"
  else if 1000000 ≤ bytes then scaled 1000000 1 ++ "MB"
  else scaled 1000 1 ++ "kB"

/-- The last lines of a list, or all of it. -/
def tail (lines : List α) (count : Option Nat) : List α :=
  match count with
  | some n => lines.drop (lines.length - n)
  | none => lines

/-- The number of lines that a `--tail` flag asks for. Anything that is no number asks for all. -/
def tailCount (value : Option String) : Option Nat := value.bind (Text.unsigned? UInt64.size)

end Display

namespace Startup

def databaseWords : List String := ["postgres", "mysql", "mariadb", "mongo", "db"]

def webWords : List String := ["nginx", "httpd", "web", "app"]

/-- The lines that a container of an image prints when it starts. A database tells the time. -/
def logs (image : String) : Draw (List String) := do
  let base := Text.lower (Text.afterLast '/' (ImageName.splitTag image).1)
  if databaseWords.any fun w => Text.holds w base then
    let t ← Supply.now
    return [
      "LOG:  database system was shut down at " ++ t.secondText ++ " UTC",
      "LOG:  database system is ready to accept connections"]
  else if Text.holds "redis" base then return ["* Ready to accept connections"]
  else if webWords.any fun w => Text.holds w base then
    return ["/docker-entrypoint.sh: Configuration complete; ready for start up"]
  else return ["service started"]

end Startup

end DockerSim
