/-!
# Users

What the records of a host say of the user of a process: the number of the user stands in the status
of the process, and the directory of the user in the table of all users.
-/

namespace CodeVault.CommandLine

/-- The number of the user of a process, by its status: the first of the numbers behind `Uid:`. -/
def userNumber? (status : String) : Option String :=
  (status.splitOn "\n").findSome? fun line =>
    match line.splitOn "\t" with
    | "Uid:" :: number :: _ => some number
    | _ => none

/-- The directory of the user with a number, by the table of users: seven fields a line, the third
    of which is the number and the sixth the directory. -/
def userDirectory? (table number : String) : Option String :=
  ((table.splitOn "\n").findSome? fun line =>
    match line.splitOn ":" with
    | [_, _, user, _, _, directory, _] => if user = number then some directory else none
    | _ => none).filter (· != "")

end CodeVault.CommandLine
