import OntologyGuard.Proofs.Storage.FileSystem
import OntologyGuard.Storage.StoredFile

namespace OntologyGuard

namespace Directory

variable {root inner : Directory} {place : List Name} {name : Name}

end Directory

namespace FileSystem

variable {fs fs' : FileSystem} {path : Pathname} {place : List Name} {name : Name} {content : Bytes}

section Steps

variable {ε α β : Type}

end Steps

end FileSystem

namespace StoredFile

open FileSystem

end StoredFile

end OntologyGuard
