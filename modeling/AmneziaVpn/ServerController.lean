import AmneziaVpn.QtStringLists

/-!
# Commands and files on the server

A command on the server is run over an SSH channel. Its output is read in pieces of at most 2048
bytes, and a callback gets each piece as a text.
-/

namespace AmneziaVpn

inductive ErrorCode
  | unknownError | internalError | notImplementedError | amneziaServiceNotRunning
  | serverCheckFailed | serverPortAlreadyAllocatedError | serverContainerMissingError
  | serverDockerFailedError | serverCancelInstallation | serverUserNotInSudo
  | serverPacketManagerError
  | sshRequestDeniedError | sshInterruptedError | sshInternalError | sshPrivateKeyError
  | sshPrivateKeyFormatError | sshTimeoutError | sshScpFailureError
  | openVpnConfigMissing | openVpnManagementServerError
  | openVpnExecutableMissing | shadowSocksExecutableMissing | cloakExecutableMissing
  | amneziaServiceConnectionFailed | executableMissing | xrayExecutableMissing
  | tun2SockExecutableMissing
  | openVpnAdaptersInUseError | openVpnUnknownError | openVpnTapAdapterError | addressPoolError
  | openSslFailed | shadowSocksExecutableCrashed | cloakExecutableCrashed | xrayExecutableCrashed
  | tun2SockExecutableCrashed
  | importInvalidConfigError | androidError
  | apiConfigDownloadError | apiConfigAlreadyAdded | apiConfigEmptyError | apiConfigTimeoutError
  | apiConfigSslError | apiMissingAgwPublicKey
  | openError | readError | permissionsError | unspecifiedError | fatalError | abortError
  deriving DecidableEq

namespace ServerController

/-- What the callback `stdOut += data + "\n"` has collected after these reads. -/
def collected (reads : List String) : String := String.join (reads.map (· ++ "\n"))

/-- The only read of an output that arrives in one piece. There is none of an empty output. -/
def inOnePiece (output : String) : List String := if output = "" then [] else [output]

/-- Whether the container has the text afterwards, and what is reported. -/
structure Upload where
  written : Bool
  error : Option ErrorCode

def Upload.stored (upload : Upload) (text file : String) : String :=
  if upload.written then text else file

/-- `grep word`: the lines that have the word, each with its line end. -/
def grep (word file : String) : String :=
  String.join (((QString.split file "\n").filter (QString.contains · word)).map (· ++ "\n"))

end ServerController

end AmneziaVpn
