/-! A jar that ships in an apex is configured as `apex:jar`. Only the first colon separates, so the
jar may hold further ones, and both sides must be there. -/

namespace Preopt

structure ApexJar where
  apex : String
  jar : String
  deriving DecidableEq, Repr

namespace ApexJar

def parse? (value : String) : Option ApexJar :=
  let apex := value.toList.takeWhile (· ≠ ':')
  match value.toList.dropWhile (· ≠ ':') with
  | [] => none
  | _ :: jar =>
    if apex = [] ∨ jar = [] then none else some ⟨String.ofList apex, String.ofList jar⟩

end ApexJar
end Preopt
