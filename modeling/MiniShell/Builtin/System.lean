import MiniShell.Command
import MiniShell.Text.Pad

/-!
# Commands about the machine and its user
-/

namespace MiniShell.Builtin

def whoami : Command :=
  .reporting "whoami" "whoami" "Shows the current user." fun _ env => pure (.line env.config.user)

/-- Shows the `Timestamp.text` of the time, if the clock tells it. -/
def date : Command :=
  .reporting "date" "date" "Shows the current date." fun _ env => do
    let now ← env.clock
    pure (.line now.text)

/-- Refuses, whatever it is asked to run. -/
def superuser : Command :=
  .reporting "sudo" "sudo" "Execute a command as another user." fun _ env =>
    pure (.line ("[sudo] password for " ++ env.config.user ++ ": Sorry, try again."))

/-! ## System facts beside a logo -/

/-- The logo, in lines of `logoWidth` characters. -/
def logo : List String :=
  [ "        .--.         ",
    "       |o_o |        ",
    "       |:_/ |        ",
    "      //   \\ \\       ",
    "     (|     | )      ",
    "    /'_   _/`\\      ",
    "    \\___)=(___/      " ]

def logoWidth : Nat := 21

def facts : List (String × String) :=
  [ ("OS", "Ubuntu 22.04.3 LTS"),
    ("Host", "VirtualBox 1.2"),
    ("Kernel", "5.15.0-78-generic"),
    ("Uptime", "3 days, 14 hours"),
    ("Shell", "bash 5.1.16"),
    ("CPU", "Intel Xeon E5-2673 v3"),
    ("Memory", "4.2GiB / 16.0GiB") ]

/-- Who is where, underlined, and then the `facts`. -/
def factLines (config : Config) : List Line :=
  let title := config.user ++ "@" ++ config.host
  .styled title .accent
    :: .plain (String.ofList (List.replicate title.length '-'))
    :: facts.map fun (label, value) => (Line.styled label .accent).push (": " ++ value) .plain

/-- Puts each line of facts to the right of a line of the logo, or of `logoWidth` blanks once the
logo has ended. -/
def besideLogo : List String → List Line → List Line
  | _, [] => []
  | art, fact :: facts =>
    (((Line.styled (Text.padRight logoWidth (art.head?.getD "")) .accent).push "  " .plain).append
      fact) :: besideLogo art.tail facts

/-- Shows the `factLines` beside a logo. -/
def neofetch : Command :=
  .reporting "neofetch" "neofetch" "Shows system info." fun _ env =>
    pure (.lines (besideLogo logo (factLines env.config)))

end MiniShell.Builtin
