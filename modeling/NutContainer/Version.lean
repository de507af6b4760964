/-!
The version of the library, which callers can ask for.
-/
namespace NutContainer

/-- Major, minor and patch number. -/
def version : String := "0.1.0"

end NutContainer
