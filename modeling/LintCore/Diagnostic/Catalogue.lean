import LintCore.Diagnostic.Catalogue.Assignment
import LintCore.Diagnostic.Catalogue.Else
import LintCore.Diagnostic.Catalogue.Generator
import LintCore.Diagnostic.Catalogue.Methods
import LintCore.Diagnostic.Catalogue.Number
import LintCore.Diagnostic.Catalogue.Unclosed

/-!
The catalogue of diagnostics. It is divided like a dictionary: a section is named for the word that
its first entry begins with. The order of the entries is part of the catalogue, and no two of them
share a name or a code.
-/

set_option autoImplicit false
set_option relaxedAutoImplicit false

namespace LintCore

open Catalogue

def catalogue : List Entry :=
  assignmentSection ++ elseSection ++ generatorSection ++ methodsSection ++ numberSection
    ++ unclosedSection

namespace Catalogue

def codes : List String := catalogue.map Entry.code

def names : List String := catalogue.map Entry.name

end Catalogue

end LintCore
