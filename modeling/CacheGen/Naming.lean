import CacheGen.Text.Lowercase

/-!
# Names derived from services and methods

A service `OrderCache` is served by a manager `OrderCacheManager`, built by
`NewOrderCacheManager`. The manager holds one cache handle per method in a field that carries both
names, and reaches it through a getter and a refresher.
-/

namespace CacheGen.Naming

/-- A service without a name has a manager without one. -/
def managerName (service : String) : String :=
  if service = "" then "" else service ++ "Manager"

def constructorName (manager : String) : String := "New" ++ manager

/-- The same name with its first letter in lower case. -/
def privateName (name : String) : String := Text.lowercaseFirst name

def compositeName (owner method : String) : String := owner ++ "_" ++ method

/-- The field that holds the handle of one method of a service. -/
def handleField (service method : String) : String :=
  compositeName (privateName (managerName service)) method

/-- The parameter that takes the function filling the cache of a method. -/
def updateParam (method : String) : String := "update" ++ method ++ "Fn"

def getterName (method : String) : String := "Get" ++ method

def refresherName (method : String) : String := "Refresh" ++ method

/-- The name under which the runtime knows the cache of a method. -/
def cacheName (method : String) : String := Text.lowercase method

end CacheGen.Naming
