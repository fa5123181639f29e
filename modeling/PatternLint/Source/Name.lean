import PatternLint.Path

/-!
This module contains the names that decide what is checked: hidden entries, directories that hold
the sources of others, and source files that are no tests.
-/

namespace PatternLint

def vendorName : String :=
  "vendor"

def isHiddenName (name : String) : Bool :=
  name.toList.head? = some '.'

def sourceExtension : String :=
  "rs"

def testSuffixes : List String :=
  ["_test.rs", "_tests.rs"]

def isTestName (name : String) : Bool :=
  testSuffixes.any fun suffix => suffix.toList.isSuffixOf name.toList

def isSourcePath (p : Path) : Bool :=
  match p.fileName?.bind RawText.text? with
  | some name => Path.extensionOfName? name == some sourceExtension && !isTestName name
  | none => false

end PatternLint
