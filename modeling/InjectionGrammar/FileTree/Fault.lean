/-! Why a file or a directory cannot be used. -/
namespace InjectionGrammar

inductive FileFault where
  | notFound
  | alreadyExists
  | notDirectory
  | isDirectory
  | nameTooLong
  /-- A name with a null character. -/
  | invalidName
  /-- Bytes that encode no text. -/
  | notText
  /-- What else can go wrong with the files of the system, in its words. Only Main gives it, and no
  operation on a file tree. -/
  | failed (reason : String)
  deriving DecidableEq, Repr

def FileFault.message : FileFault → String
  | notFound => "No such file or directory (os error 2)"
  | alreadyExists => "File exists (os error 17)"
  | notDirectory => "Not a directory (os error 20)"
  | isDirectory => "Is a directory (os error 21)"
  | nameTooLong => "File name too long (os error 36)"
  | invalidName => "file name contained an unexpected NUL byte"
  | notText => "stream did not contain valid UTF-8"
  | failed reason => reason

end InjectionGrammar
