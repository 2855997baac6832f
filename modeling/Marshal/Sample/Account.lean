import Marshal.Sample.State

namespace Marshal.Sample

namespace Account

def save (a : Account) : Code Unit := Native.setReceiver (.account a)

/-- The account with more on it; the sum wraps around. -/
def deposit (a : Account) (n : Long) : Account := { a with balance := a.balance + n }

def withdraw (a : Account) (n : Long) : Account := { a with balance := a.balance - n }

def balanceOf : NativeCode State [] long := fun _ => onAccount fun a => ok a.balance

def deposited : NativeCode State [long] .unit := fun (n, _) => onAccount fun a => do
  save (a.deposit n)
  ok ()

def raised : NativeCode State [.list long] .unit := fun (steps, _) => onAccount fun a => do
  save (a.deposit (Long.sum steps))
  ok ()

def method? (code name : String) : Option (MethodBinding (Program State)) :=
  let method (params : List Ty) (result : Ty) (code : NativeCode State params result) :
      Option (MethodBinding (Program State)) :=
    some (MethodBinding.ofNative name accountType params result code)
  match code with
  | "account.balance" => method [] long balanceOf
  | "account.deposit" => method [long] .unit deposited
  | "account.double" => method [] .unit fun _ => onAccount fun a => do
      save (a.deposit a.balance)
      ok ()
  | "account.withdraw" => method [long] long fun (n, _) => onAccount fun a => do
      if a.balance.val < n.val then failWith "insufficient funds"
      else
        save (a.withdraw n)
        ok (a.withdraw n).balance
  | "account.explode" => method [long] long fun (n, _) => onAccount fun a => do
      let a := a.deposit n
      save a
      Native.panic (.text s!"exploded at {a.balance.val}")
  | "account.transfer" => method [.object, long] long fun (other, n, _) => do
      let given ← Native.withInstance other accountType <| onAccount fun a => do
        save (a.deposit n)
        return .none
      match given with
      | .error e => return .error (.error e)
      | .ok _ => onAccount fun a => do
        save (a.withdraw n)
        ok (a.withdraw n).balance
  | "account.rename" => method [.text, .text, .option .text] .text
      fun (first, last, separator, _) => onAccount fun a => do
        let owner := first ++ separator.getD " " ++ last
        save { a with owner }
        ok owner
  | "account.raise" => method [.list long] .unit raised
  | "account.sum6" => method [long, long, long, long, long, long] long
      fun (a, b, c, d, e, f, _) => onAccount fun account =>
        ok (Long.sum [account.balance, a, b, c, d, e, f])
  | _ => none

def balanceProperty : Property (Program State) :=
  .readOnly accountType long (onAccount fun a => pure a.balance)

def ownerProperty (name : String) : Property (Program State) :=
  .readWrite name accountType .text (onAccount fun a => pure a.owner)
    .text fun owner => onAccount fun a => save { a with owner }

def limitProperty (name : String) : Property (Program State) :=
  let limit := Ty.option (.fixed .u32)
  .readWrite name accountType limit (onAccount fun a => pure a.limit)
    limit fun limit => onAccount fun a => save { a with limit }

/-- A list that shows the balance; its last item becomes the balance when it is assigned. -/
def historyProperty (name : String) : Property (Program State) :=
  .readWrite name accountType (.list long) (onAccount fun a => pure [a.balance])
    (.list long) fun steps => onAccount fun a =>
      save { a with balance := steps.getLast?.getD Long.zero }

def property? (code name : String) : Option (Property (Program State)) :=
  match code with
  | "balance" => some balanceProperty
  | "owner" => some (ownerProperty name)
  | "limit" => some (limitProperty name)
  | "history" => some (historyProperty name)
  | _ => none

def opened : ConstructorCode State [long] := fun (balance, _) => ok (.account { balance })

def constructor? (code name : String) (classId : Nat) (className : String) :
    Option (FunctionBinding (Program State)) :=
  let constructor (params : List Ty) (code : ConstructorCode State params) :
      Option (FunctionBinding (Program State)) :=
    some (FunctionBinding.ofConstructor name classId className params code)
  match code with
  | "new" => constructor [long] opened
  | "open" => constructor [long] fun (balance, _) =>
      if balance.val < 0 then failWith "negative opening balance" else ok (.account { balance })
  | "full" => constructor [long, .text, .option (.fixed .u32)]
      fun (balance, owner, limit, _) => ok (.account { balance, owner, limit })
  | "explode" => constructor [long] fun (n, _) =>
      Native.panic (.text s!"bad balance {n.val}")
  | _ => none

end Account

namespace Counter

def countOf : NativeCode State [] long := fun _ => onCounter fun n => ok n

def method? (code name : String) : Option (MethodBinding (Program State)) :=
  match code with
  | "counter.get" => some (MethodBinding.ofNative name counterType [] long countOf)
  | "counter.add" => some (MethodBinding.ofNative name counterType [long] .unit
      fun (d, _) => onCounter fun (n : Long) => do
        Native.setReceiver (.counter (Long.sum [n, d]))
        ok ())
  | _ => none

def count : Property (Program State) :=
  .readOnly counterType long (onCounter fun n => pure n)

def started : ConstructorCode State [long] := fun (n, _) => ok (.counter n)

def constructor? (code name : String) (classId : Nat) (className : String) :
    Option (FunctionBinding (Program State)) :=
  match code with
  | "new" => some (FunctionBinding.ofConstructor name classId className [long] started)
  | "open" => some (FunctionBinding.ofConstructor name classId className [.fixed .u8]
      fun (n, _) =>
        if n.val = 0 then failWith "zero" else ok (.counter (Fixed.wrap .i64 n.val)))
  | _ => none

end Counter

/-- A method of either class by the name of its code. -/
def method? (code name : String) : Option (MethodBinding (Program State)) :=
  (Account.method? code name).or (Counter.method? code name)

end Marshal.Sample
