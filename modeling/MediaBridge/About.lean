/-! # The program's name and version -/

namespace MediaBridge.About

/-- The name of the program. -/
def name : String := "framebridge"

/-- The version of the program. -/
def version : String := "0.2.0"

/-- What the program is for. -/
def purpose : String :=
  "Bridge that feeds frames into an external media pipeline and reattaches per-frame metadata to its output."

/-- The name with the version. -/
def versionLine : String := name ++ " " ++ version

end MediaBridge.About
