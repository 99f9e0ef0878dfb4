import TimingReport.Console.Paint

/-!
# The banner

What the console shows first.
-/

namespace TimingReport.Console

/-- The version of the program. -/
def version : String := "0.5.3"

/-- The name of the program in large letters. -/
def letters : List String := [
  " _                     _                                _",
  "| |__   ___ _ __   ___| |__  _ __ ___ _ __   ___  _ __| |_",
  "| '_ \\ / _ \\ '_ \\ / __| '_ \\| '__/ _ \\ '_ \\ / _ \\| '__| __|",
  "| |_) |  __/ | | | (__| | | | | |  __/ |_) | (_) | |  | |_",
  "|_.__/ \\___|_| |_|\\___|_| |_|_|  \\___| .__/ \\___/|_|   \\__|",
  "                                     |_|"]

/-- The banner: the letters and the version, each with an empty line behind it. -/
def banner : String :=
  let name := "\n" ++ String.join (letters.map (· ++ "\n"))
  let subtitle := "                 v" ++ version ++ " - Benchmark Report Generator\n"
  paint .cyan name ++ "\n" ++ paintBold .brightWhite subtitle ++ "\n"

end TimingReport.Console
